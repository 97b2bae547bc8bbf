/-
# The index and its file

An index is worked on by putting entries in and by saving, in any order (`Ledger.Step`). Putting
in keeps hashes distinct but not in order, and saving sorts; a search by halving needs both.

| after | the entries |
| --- | --- |
| any steps | have under each hash what was put in last under it, or what was there at the start |
| a save | are strictly increasing by hash |

So the file that a save leaves gives the index back, and halving finds in it what the index has
(`Ledger.saved_index`). The index may start empty, or with what was read from a file that was
saved before (`Ledger.Begun`).
-/

import Bindery.Proofs.Host.Directory
import Bindery.Proofs.Store.Archive
import Bindery.Proofs.Store.Directory
import Bindery.Proofs.Store.Index

namespace Bindery

/-! ### Halving -/

namespace Index

/-- The entries stand in the order of their hashes, and no two have the same. -/
def StrictlySorted (entries : Index) : Prop := entries.Pairwise fun a b => a.hash < b.hash

theorem strictlySorted_sort {entries : Index} (h : (hashes entries).Nodup) :
    entries.sort.StrictlySorted := by
  have hdistinct : entries.sort.Pairwise fun a b => a.hash ≠ b.hash :=
    List.pairwise_map.1 (nodup_hashes_sort h)
  refine ((sorted_sort entries).and hdistinct).imp fun {a b} hab => ?_
  have hle : a.hash ≤ b.hash := of_decide_eq_true hab.1
  by_contra hlt
  exact hab.2 (String.le_antisymm hle (String.not_lt.1 hlt))

/-- Entries can be in order in one way only. -/
theorem sort_eq_of_perm {entries sorted : Index} (h : sorted.StrictlySorted)
    (perm : entries.Perm sorted) : entries.sort = sorted := by
  have hnodup : (hashes sorted).Nodup := List.pairwise_map.2 (h.imp fun hlt => String.ne_of_lt hlt)
  have hsort : entries.sort.StrictlySorted :=
    strictlySorted_sort ((perm.map IndexEntry.hash).nodup_iff.2 hnodup)
  refine List.Perm.eq_of_pairwise (fun a b _ _ hlt hgt => ?_) hsort h
    ((List.mergeSort_perm _ _).trans perm)
  exact absurd hgt (String.lt_asymm hlt)

theorem StrictlySorted.hash_lt {entries : Index} (sorted : entries.StrictlySorted) {i j : Nat}
    {a b : IndexEntry} (hi : entries[i]? = some a) (hj : entries[j]? = some b) (hij : i < j) :
    a.hash < b.hash := by
  obtain ⟨hilt, rfl⟩ := List.getElem?_eq_some_iff.1 hi
  obtain ⟨hjlt, rfl⟩ := List.getElem?_eq_some_iff.1 hj
  exact List.pairwise_iff_getElem.1 sorted i j hilt hjlt hij

/-- **Halving keeps the place of a hash** among what is left. -/
theorem narrow_eq {entries : Index} (sorted : entries.StrictlySorted) {i : Nat} {e : IndexEntry}
    (hi : entries[i]? = some e) (base size : Nat) (hlow : base ≤ i) (hhigh : i < base + size) :
    narrow entries.toArray e.hash base size = i := by
  fun_induction narrow entries.toArray e.hash base size with
  | case1 base size hsize => omega
  | case2 base size hsize half isAfter ih =>
    have hhalf : half = size / 2 := rfl
    by_cases hside : i < base + half
    · -- the place is in the first half, and the entry in the middle comes after it
      have hafter : isAfter = true := by
        cases hm : entries[base + half]? with
        | none => simp only [isAfter, List.getElem?_toArray, hm]
        | some m =>
          simp only [isAfter, List.getElem?_toArray, hm]
          exact decide_eq_true (sorted.hash_lt hi hm hside)
      rw [dif_pos hafter] at ih
      rw [if_pos hafter]
      exact ih hlow (by omega)
    · -- the place is in the second half, whose first entry does not come after it
      have hafter : isAfter = false := by
        obtain ⟨hlt, -⟩ := List.getElem?_eq_some_iff.1 hi
        obtain ⟨m, hm⟩ : ∃ m, entries[base + half]? = some m :=
          ⟨_, List.getElem?_eq_getElem (by omega)⟩
        simp only [isAfter, List.getElem?_toArray, hm]
        refine decide_eq_false (String.not_lt.2 ?_)
        rcases Nat.eq_or_lt_of_le (Nat.le_of_not_lt hside) with heq | hlt
        · rw [heq, hi] at hm
          obtain rfl := Option.some.inj hm
          exact String.le_refl _
        · exact String.not_lt.1 (String.lt_asymm (sorted.hash_lt hm hi hlt))
      rw [dif_neg (Bool.eq_false_iff.1 hafter)] at ih
      rw [if_neg (Bool.eq_false_iff.1 hafter)]
      exact ih (by omega) (by omega)

/-- **Halving finds in sorted entries what the index has.** -/
theorem search?_eq_get? {entries : Index} (sorted : entries.StrictlySorted) (hash : String) :
    entries.search? hash = entries.get? hash := by
  unfold search?
  dsimp only
  rw [List.getElem?_toArray]
  cases hget : entries.get? hash with
  | none =>
    -- no entry has the hash, so the one that halving ends with has another
    refine Option.filter_eq_none_iff.2 fun e he => ?_
    exact List.find?_eq_none.1 hget e (List.mem_of_getElem? he)
  | some e =>
    have hhash : e.hash = hash := by simpa using List.find?_some hget
    obtain ⟨i, hi⟩ := List.getElem?_of_mem (List.mem_of_find?_eq_some hget)
    obtain ⟨hlt, -⟩ := List.getElem?_eq_some_iff.1 hi
    have hplace := narrow_eq sorted hi 0 entries.toArray.size (Nat.zero_le i) (by simpa using hlt)
    rw [hhash] at hplace
    rw [hplace, hi, Option.filter_some, if_pos (by simpa using hhash)]

end Index

/-! ### An index and its file -/

/-- An index that is worked on, and the files that it is saved to. -/
structure Ledger (L : Type) where
  entries : Index
  files : Files L

namespace Ledger

variable {L : Type}

/-- What is done to an index. -/
inductive Step where
  | upsert (e : IndexEntry)
  | save

/-- The index after one step; `path` is that of its file. -/
def next (path : String) (l : Ledger L) : Step → Ledger L
  | .upsert e => { l with entries := l.entries.upsert e }
  | .save => ⟨l.entries.sort, l.files.save path (Archive.write l.entries.sort)⟩

/-- The index after steps, first to last. -/
def after (path : String) (l : Ledger L) (steps : List Step) : Ledger L := steps.foldl (next path) l

/-- What is read from the file at a path. -/
def load? (files : Files L) (path : String) : Option Index :=
  (files.read? path).bind Archive.read?

/-- What halving finds in the file at a path. -/
def find? (files : Files L) (path hash : String) : Option IndexEntry :=
  (load? files path).bind (·.search? hash)

/-- Entries are written so that they can be read back. -/
def Lossless (entries : Index) : Prop := Archive.read? (Archive.write entries) = some entries

/-- The entries that steps put in, first to last. -/
def upserts (steps : List Step) : List IndexEntry :=
  steps.filterMap fun
    | .upsert e => some e
    | .save => none

/-- The last entry that steps put in under a hash. -/
def lastUpsert? (steps : List Step) (hash : String) : Option IndexEntry :=
  (upserts steps).reverse.find? (·.hash == hash)

/-- An index is empty at the start, or it was read from a file that another one saved. -/
inductive Begun : Ledger L → Prop
  | empty (files : Files L) : Begun ⟨[], files⟩
  | loaded {l : Ledger L} {path : String} {files : Files L} {entries : Index} (begun : Begun l)
    (steps : List Step) (lossless : Lossless (l.after path (steps ++ [.save])).entries)
    (file : files.read? path = some (Archive.write (l.after path (steps ++ [.save])).entries))
    (load : load? files path = some entries) : Begun ⟨entries, files⟩

/-- Recording an entry puts it in and saves. -/
theorem after_recorded {σ : Type} (b : Bench σ L) (e : IndexEntry) :
    after b.cache.indexPath ⟨b.cache.index, b.world.files⟩ [.upsert e, .save] =
      ⟨(b.recorded e).cache.index, (b.recorded e).world.files⟩ := rfl

variable {path : String}

theorem after_save (l : Ledger L) (steps : List Step) :
    l.after path (steps ++ [.save]) = (l.after path steps).next path .save := List.foldl_append

/-! ### Steps -/

theorem get?_next (l : Ledger L) (step : Step) (hash : String) :
    (l.next path step).entries.get? hash =
      (lastUpsert? [step] hash).or (l.entries.get? hash) := by
  cases step with
  | upsert e =>
    refine (Index.get?_upsert l.entries e hash).trans ?_
    by_cases h : e.hash = hash <;> simp [lastUpsert?, upserts, h]
  | save => exact Index.get?_sort l.entries hash

theorem lastUpsert?_cons (step : Step) (steps : List Step) (hash : String) :
    lastUpsert? (step :: steps) hash = (lastUpsert? steps hash).or (lastUpsert? [step] hash) := by
  cases step with
  | upsert e => simp [lastUpsert?, upserts, List.find?_append]
  | save => simp [lastUpsert?, upserts]

/-- What an index has under a hash was put in last under it, or was there at the start. -/
theorem get?_after (l : Ledger L) (steps : List Step) (hash : String) :
    (l.after path steps).entries.get? hash =
      (lastUpsert? steps hash).or (l.entries.get? hash) := by
  induction steps generalizing l with
  | nil => rfl
  | cons step steps ih =>
    calc (l.after path (step :: steps)).entries.get? hash
        = (lastUpsert? steps hash).or ((l.next path step).entries.get? hash) := ih _
      _ = (lastUpsert? steps hash).or
            ((lastUpsert? [step] hash).or (l.entries.get? hash)) := by rw [get?_next]
      _ = (lastUpsert? (step :: steps) hash).or (l.entries.get? hash) := by
          rw [lastUpsert?_cons step steps, Option.or_assoc]

theorem nodup_next {l : Ledger L} (h : (Index.hashes l.entries).Nodup) (step : Step) :
    (Index.hashes (l.next path step).entries).Nodup := by
  cases step with
  | upsert e => exact Index.nodup_hashes_upsert h e
  | save => exact Index.nodup_hashes_sort h

theorem nodup_after {l : Ledger L} (h : (Index.hashes l.entries).Nodup) (steps : List Step) :
    (Index.hashes (l.after path steps).entries).Nodup := by
  induction steps generalizing l with
  | nil => exact h
  | cons step steps ih => exact ih (nodup_next h step)

/-- However an index begins, its hashes are distinct. -/
theorem Begun.nodup {l : Ledger L} (h : Begun l) : (Index.hashes l.entries).Nodup := by
  induction h with
  | empty => exact List.nodup_nil
  | @loaded l path files entries _ steps lossless file load ih =>
    rw [load?, file, Option.bind_some, lossless] at load
    obtain rfl := Option.some.inj load
    exact nodup_after ih _

theorem mem_hashes_after {l : Ledger L} {steps : List Step} {hash : String} :
    hash ∈ Index.hashes (l.after path steps).entries ↔
      hash ∈ Index.hashes l.entries ∨ hash ∈ Index.hashes (upserts steps) := by
  induction steps generalizing l with
  | nil => simp [after, upserts, Index.hashes]
  | cons step steps ih =>
    refine ih.trans ?_
    cases step with
    | upsert e =>
      show hash ∈ Index.hashes (l.entries.upsert e) ∨ _ ↔ _ ∨ hash ∈ e.hash :: _
      rw [Index.mem_hashes_upsert, List.mem_cons, or_assoc]
      rfl
    | save => exact or_congr_left Index.mem_hashes_sort

/-! ### Files -/

theorem blocked_after {dir name : String} (hname : Path.IsName name) (l : Ledger L)
    (steps : List Step) : (l.after (Path.join dir name) steps).files.blocked (Path.join dir name) =
      l.files.blocked (Path.join dir name) := by
  induction steps generalizing l with
  | nil => rfl
  | cons step steps ih =>
    refine (ih _).trans ?_
    cases step with
    | upsert e => rfl
    | save => exact (Files.SameBeyond.save hname _).blocked hname

/-- A save leaves the bytes of the sorted entries in the file. -/
theorem read?_save {dir name : String} (hname : Path.IsName name) {l : Ledger L}
    (free : l.files.blocked (Path.join dir name) = false) :
    (l.next (Path.join dir name) .save).files.read? (Path.join dir name) =
      some (Archive.write l.entries.sort) := by
  have hfile : (l.next (Path.join dir name) .save).files.get? (Path.join dir name) = _ :=
    Files.get?_save_self l.files hname (Archive.write l.entries.sort)
  rw [free, if_neg nofun] at hfile
  rw [Files.read?, hfile]

theorem load?_save {dir name : String} (hname : Path.IsName name) {l : Ledger L}
    (free : l.files.blocked (Path.join dir name) = false) (lossless : Lossless l.entries.sort) :
    load? (l.next (Path.join dir name) .save).files (Path.join dir name) =
      some l.entries.sort := by
  rw [load?, read?_save hname free, Option.bind_some, lossless]

/-- **An index is what was put in last, and its file holds the same.** Whatever is put in and
however often it is saved, an index has under a hash the last entry that was put in under it, or the
one that it began with. After a save its entries are strictly increasing by hash, each hash that is
known stands there once, and the file that was saved gives an index that has the same; halving
finds in the file just what the index has. -/
theorem saved_index {dir name : String} (hname : Path.IsName name) {l : Ledger L} (begun : Begun l)
    (free : l.files.blocked (Path.join dir name) = false) (steps : List Step) :
    let path := Path.join dir name
    let now := l.after path steps
    let saved := l.after path (steps ++ [.save])
    (∀ hash, now.entries.get? hash = (lastUpsert? steps hash).or (l.entries.get? hash)) ∧
    saved.entries.StrictlySorted ∧
    (∀ hash, (Index.hashes saved.entries).count hash =
      if hash ∈ Index.hashes l.entries ∨ hash ∈ Index.hashes (upserts steps) then 1 else 0) ∧
    (Lossless saved.entries → load? saved.files path = some saved.entries ∧
      ∀ hash, saved.entries.get? hash = now.entries.get? hash ∧
        find? saved.files path hash = now.entries.get? hash) := by
  dsimp only
  rw [after_save]
  set now := l.after (Path.join dir name) steps
  have hnodup : (Index.hashes now.entries).Nodup := nodup_after begun.nodup steps
  have hsorted : now.entries.sort.StrictlySorted := Index.strictlySorted_sort hnodup
  refine ⟨get?_after l steps, hsorted, fun hash => ?_, fun lossless => ?_⟩
  · rw [List.Nodup.count (nodup_next hnodup .save)]
    exact if_congr (Index.mem_hashes_sort.trans mem_hashes_after) rfl rfl
  · have hload : load? (now.next (Path.join dir name) .save).files _ = _ :=
      load?_save hname ((blocked_after hname l steps).trans free) lossless
    refine ⟨hload, fun hash => ⟨Index.get?_sort now.entries hash, ?_⟩⟩
    calc find? (now.next (Path.join dir name) .save).files (Path.join dir name) hash
        = now.entries.sort.search? hash := by rw [find?, hload, Option.bind_some]
      _ = now.entries.sort.get? hash := Index.search?_eq_get? hsorted hash
      _ = now.entries.get? hash := Index.get?_sort now.entries hash

/-! ### An index that is opened again -/

namespace Reopened

/-- An entry for a call. -/
def row (hash : String) (kind : UInt8) : IndexEntry := ⟨hash, "f()", kind, "int"⟩

/-- The path of the index. -/
def file : String := Path.join "/build" Cache.indexFile

/-- Entries are put in out of order, one of them twice. -/
def steps : List Step := [.upsert (row "f_b" 0), .upsert (row "f_a" 1), .upsert (row "f_b" 2)]

/-- An index in a world without files, behind these steps. -/
def entered : Ledger Empty := after file ⟨[], {}⟩ steps

/-- What was read after it was saved. -/
def reopened : Ledger Empty := ⟨[row "f_a" 1, row "f_b" 2], (entered.next file .save).files⟩

theorem sort_entered : entered.entries.sort = [row "f_a" 1, row "f_b" 2] := by
  have hentries : entered.entries = [row "f_b" 2, row "f_a" 1] := by decide +kernel
  have sorted : Index.StrictlySorted [row "f_a" 1, row "f_b" 2] := by
    unfold Index.StrictlySorted
    decide +kernel
  rw [hentries]
  exact Index.sort_eq_of_perm sorted (.swap _ _ _)

theorem sort_reopened : (reopened.entries.upsert (row "f_c" 1)).sort =
    [row "f_a" 1, row "f_b" 2, row "f_c" 1] := by
  have sorted : Index.StrictlySorted [row "f_a" 1, row "f_b" 2, row "f_c" 1] := by
    unfold Index.StrictlySorted
    decide +kernel
  have hentries : reopened.entries.upsert (row "f_c" 1) =
      [row "f_a" 1, row "f_b" 2, row "f_c" 1] := by decide +kernel
  rw [hentries]
  exact Index.sort_eq_of_perm sorted (.refl _)

theorem lossless_entered : Lossless entered.entries.sort := by
  refine Archive.read?_write ?_
  rw [sort_entered, Archive.Fits]
  decide +kernel

theorem begun_reopened : Begun reopened := by
  have free : entered.files.blocked file = false := by decide +kernel
  have hload : load? (entered.next file .save).files file = _ :=
    load?_save isName_indexFile free lossless_entered
  rw [sort_entered] at hload
  exact .loaded (.empty {}) steps lossless_entered (read?_save isName_indexFile free) hload

end Reopened

open Reopened in
/-- The hypotheses of `saved_index` are satisfiable: an index that was saved is opened again, gets
another entry and is saved once more, and halving finds in its file what was put in before. -/
theorem saved_index_reopened :
    Path.IsName Cache.indexFile ∧ Begun reopened ∧ reopened.files.blocked file = false ∧
      Lossless (reopened.after file [.upsert (row "f_c" 1), .save]).entries ∧
      find? (reopened.after file [.upsert (row "f_c" 1), .save]).files file "f_b" =
        some (row "f_b" 2) := by
  have name : Path.IsName Cache.indexFile := isName_indexFile
  have free : reopened.files.blocked file = false :=
    (blocked_after name entered [.save]).trans (by decide +kernel)
  have lossless : Lossless (reopened.after file [.upsert (row "f_c" 1), .save]).entries := by
    refine Archive.read?_write ?_
    rw [show (reopened.after file [.upsert (row "f_c" 1), .save]).entries = _ from sort_reopened,
      Archive.Fits]
    decide +kernel
  obtain ⟨get, -, -, saved⟩ := saved_index name begun_reopened free [.upsert (row "f_c" 1)]
  refine ⟨name, begun_reopened, free, lossless, ((saved lossless).2 "f_b").2.trans ?_⟩
  exact (get "f_b").trans (by decide +kernel)

end Ledger
end Bindery
