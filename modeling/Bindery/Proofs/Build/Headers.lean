/-
# Which headers an include line reaches

A header is included by its file name, and looked up in the directories that the flags give, in
their order. What a directory contains is taken from the list of headers. Two spellings may stand
for one directory: `place` says for which, and all that follows holds for any `place`.

The flags name each directory once. This changes no lookup, since a lookup ends at the first
directory that has the name (`Headers.find?_distinct`). File names, however, are left as they are:

| headers | names | found in |
| --- | --- | --- |
| `/a/x.hpp`, `/b/y.hpp` | `x.hpp`, `y.hpp` | `/a`, `/b` |
| `/a/x.hpp`, `/b/x.hpp` | `x.hpp`, `x.hpp` | `/a`, `/a` |

So a header is reached exactly if no header of the same name has a directory that is listed before
its own, and all headers are reached exactly if their names differ (`Headers.reaches_iff`).
-/

import Bindery.Build.Headers
import Mathlib.Data.List.Nodup
import Mathlib.Data.Option.Basic
import Mathlib.Data.Prod.Basic

namespace Bindery

namespace Path

/-- A path with a file name has a directory. -/
theorem exists_parent?_of_fileName? {path name : String} (h : fileName? path = some name) :
    ∃ dir, parent? path = some dir := by
  unfold fileName? at h
  unfold parent?
  cases hback : partsBack (split path.toList).2 with
  | nil =>
    rw [hback] at h
    exact absurd h nofun
  | cons last back => exact ⟨_, by simp only [hback]; rfl⟩

/-- The directory of an absolute path is not the empty path. -/
theorem parent?_ne_empty {path dir : String} (habsolute : isAbsolute path = true)
    (h : parent? path = some dir) : dir ≠ "" := by
  obtain ⟨body, hbody⟩ : ∃ body, path.toList = '/' :: body := by
    cases hpath : path.toList with
    | nil => simp [isAbsolute, hpath] at habsolute
    | cons c body =>
      obtain rfl : c = '/' := by simpa [isAbsolute, hpath] using habsolute
      exact ⟨body, rfl⟩
  unfold parent? at h
  rw [hbody] at h
  simp only [split] at h
  cases hback : partsBack body with
  | nil => simp [hback] at h
  | cons last back =>
    rw [hback] at h
    rintro rfl
    have hempty := congrArg String.toList (Option.some.inj h)
    simp at hempty

end Path

namespace Headers

/-! ### Where a lookup ends -/

/-- A lookup among the texts of a list needs each of them once only. -/
theorem find?_distinct (P : String → Bool) (l : List String) :
    (distinct l).find? P = l.find? P := by
  induction l with
  | nil => rfl
  | cons s r ih =>
    rw [distinct, List.find?_cons, List.find?_cons]
    cases hs : P s with
    | true => rfl
    | false =>
      have hkept : (fun t => decide (decide (t ≠ s) = true ∧ P t = true)) = P := by
        funext t
        by_cases ht : t = s
        · simp [ht, hs]
        · simp [ht]
      show ((distinct r).filter (· ≠ s)).find? P = r.find? P
      rw [List.find?_filter, hkept, ih]

/-- A lookup ends at one of its hits exactly if no other hit comes up earlier in the list. -/
theorem find?_eq_some_iff_idxOf {β : Type} [BEq β] [LawfulBEq β] {P : β → Bool} {l : List β}
    {a : β} (hmem : a ∈ l) (ha : P a = true) :
    l.find? P = some a ↔ ∀ b ∈ l, P b = true → l.idxOf a ≤ l.idxOf b := by
  induction l with
  | nil => exact absurd hmem List.not_mem_nil
  | cons x r ih =>
    rw [List.find?_cons]
    by_cases hx : P x = true
    · simp only [hx]
      constructor
      · rintro h b - -
        rw [← Option.some.inj h, List.idxOf_cons_self]
        exact Nat.zero_le _
      · intro h
        have hfirst := h x List.mem_cons_self hx
        by_contra hne
        rw [List.idxOf_cons_self, List.idxOf_cons_ne r fun hxa => hne (congrArg some hxa)] at hfirst
        exact absurd hfirst (Nat.not_succ_le_zero _)
    · have hother : ∀ b, P b = true → x ≠ b := by
        rintro b hb rfl
        exact hx hb
      have har := (List.mem_cons.1 hmem).resolve_left (hother a ha).symm
      rw [Bool.not_eq_true] at hx
      simp only [hx, ih har]
      constructor
      · intro h b hb hPb
        rw [List.idxOf_cons_ne r (hother a ha), List.idxOf_cons_ne r (hother b hPb)]
        exact Nat.succ_le_succ (h b ((List.mem_cons.1 hb).resolve_left (hother b hPb).symm) hPb)
      · intro h b hb hPb
        have hle := h b (List.mem_cons_of_mem x hb) hPb
        rw [List.idxOf_cons_ne r (hother a ha), List.idxOf_cons_ne r (hother b hPb)] at hle
        exact Nat.le_of_succ_le_succ hle

/-! ### Flags -/

/-- The directory that a flag has searched. -/
def searched? (flag : String) : Option String :=
  match flag.toList with
  | '-' :: 'I' :: dir => some (String.ofList dir)
  | _ => none

theorem searched?_flag (dir : String) : searched? ("-I" ++ dir) = some dir := by
  simp [searched?]

/-- The flags of a set of headers have the directories of the headers searched. -/
theorem searched_includeFlags (paths : List String) :
    (includeFlags paths).filterMap searched? = directories paths := by
  have hflag : searched? ∘ ("-I" ++ ·) = some := funext searched?_flag
  rw [includeFlags, List.filterMap_map, hflag, List.filterMap_some]

/-! ### Lookup -/

section

variable {α : Type} (place : String → α)

/-- The directory of a header, whichever way it is spelled. -/
def site (path : String) : Option α := (Path.parent? path).map place

variable [DecidableEq α]

/-- Whether one of the headers lies in a directory under a name. -/
def holds (paths : List String) (name : String) (dir : Option α) : Bool :=
  paths.any fun path => Path.fileName? path == some name && site place path == dir

/-- The first directory of the flags that contains a name, if directories contain the headers of a
list and nothing else. -/
def found? (paths flags : List String) (name : String) : Option String :=
  (flags.filterMap searched?).find? fun dir => holds place paths name (some (place dir))

/-- A lookup of a name ends in the directory of a header. -/
def Reaches (paths flags : List String) (path name : String) : Prop :=
  ∃ dir, found? place paths flags name = some dir ∧ some (place dir) = site place path

/-- The number of headers before the first one from the directory of a header. -/
def rank (paths : List String) (path : String) : Nat :=
  (paths.map (site place)).idxOf (site place path)

end

/-- The headers of a list are absolute paths of files. -/
def Proper (paths : List String) : Prop :=
  ∀ path ∈ paths, Path.isAbsolute path = true ∧ (Path.fileName? path).isSome = true

/-- No text is passed over that has a part. -/
theorem map_eq_map_some {f : String → Option String} {l : List String}
    (h : ∀ s ∈ l, ∃ t, f s = some t) : l.map f = (l.filterMap f).map some := by
  induction l with
  | nil => rfl
  | cons s r ih =>
    obtain ⟨t, ht⟩ := h s List.mem_cons_self
    rw [List.filterMap_cons_some ht, List.map_cons, List.map_cons, ht,
      ih fun u hu => h u (List.mem_cons_of_mem s hu)]

namespace Proper

variable {paths : List String}

theorem fileNames (h : Proper paths) :
    paths.map Path.fileName? = (includes paths).map some :=
  map_eq_map_some fun path hpath => Option.isSome_iff_exists.1 (h path hpath).2

theorem parents (h : Proper paths) :
    paths.map Path.parent? = (paths.filterMap Path.parent?).map some :=
  map_eq_map_some fun path hpath =>
    have ⟨_, hname⟩ := Option.isSome_iff_exists.1 (h path hpath).2
    Path.exists_parent?_of_fileName? hname

/-- Every header has an include line. -/
theorem length_includes (h : Proper paths) : (includes paths).length = paths.length := by
  rw [← List.length_map some, ← h.fileNames, List.length_map]

/-- Each header is included by its own file name. -/
theorem mem_zip_includes (h : Proper paths) {path name : String} :
    (path, name) ∈ paths.zip (includes paths) ↔
      path ∈ paths ∧ Path.fileName? path = some name := by
  have hzip : (paths.zip (includes paths)).map (Prod.map id some) =
      paths.map fun p => (p, Path.fileName? p) := by
    rw [← List.zip_map_right, ← h.fileNames, List.map_prod_left_eq_zip]
  have hinj : Function.Injective (Prod.map (id : String → String) some) :=
    Function.Injective.prodMap Function.injective_id (Option.some_injective String)
  rw [← List.mem_map_of_injective hinj, hzip]
  simp

/-- The flags have the directory of every header searched. -/
theorem directories_eq (h : Proper paths) :
    directories paths = distinct (paths.filterMap Path.parent?) := by
  rw [directories, List.filter_eq_self.2]
  intro dir hdir
  obtain ⟨path, hpath, hparent⟩ := List.mem_filterMap.1 hdir
  simpa using Path.parent?_ne_empty (h path hpath).1 hparent

theorem map_site {α : Type} (place : String → α) (h : Proper paths) :
    (paths.filterMap Path.parent?).map (some ∘ place) = paths.map (site place) := by
  have hsite : site place = Option.map place ∘ Path.parent? := rfl
  rw [hsite, ← List.map_map (l := paths), h.parents, List.map_map]
  rfl

/-- Different headers share a directory wherever they share a name, exactly if they share no
name. -/
theorem share_iff_nodup {α : Type} {place : String → α} (h : Proper paths)
    (different : (paths.map fun p => (site place p, Path.fileName? p)).Nodup) :
    (∀ p ∈ paths, ∀ q ∈ paths, Path.fileName? p = Path.fileName? q →
        site place p = site place q) ↔ (includes paths).Nodup := by
  rw [← List.nodup_map_iff (Option.some_injective String), ← h.fileNames]
  rw [List.Nodup, List.pairwise_map] at different
  constructor
  · intro hshare
    refine List.pairwise_map.2 (different.imp_of_mem ?_)
    intro p q hp hq hne hpq
    exact hne (Prod.ext (hshare p hp q hq hpq) hpq)
  · intro hnames p hp q hq hpq
    rw [List.inj_on_of_nodup_map hnames hp hq hpq]

variable {α : Type} [DecidableEq α] {place : String → α}

/-- A lookup of the name of a header goes by the directories of the headers, whatever flags follow
theirs. -/
theorem map_found? (h : Proper paths) (more : List String) {path name : String}
    (hpath : path ∈ paths) (hname : Path.fileName? path = some name) :
    (found? place paths (includeFlags paths ++ more) name).map (some ∘ place) =
      (paths.map (site place)).find? (holds place paths name) := by
  have hhit : ((paths.map (site place)).find? (holds place paths name)).isSome = true := by
    rw [List.find?_isSome]
    refine ⟨site place path, List.mem_map_of_mem hpath, List.any_eq_true.2 ⟨path, hpath, ?_⟩⟩
    simp [hname]
  have hfirst : ((directories paths).find? fun dir =>
      holds place paths name (some (place dir))).map (some ∘ place) =
      (paths.map (site place)).find? (holds place paths name) := by
    rw [h.directories_eq, find?_distinct, ← h.map_site place, List.find?_map]
    rfl
  rw [← hfirst, Option.isSome_map] at hhit
  rw [← hfirst, found?, List.filterMap_append, searched_includeFlags, List.find?_append,
    Option.or_of_isSome hhit]

/-- A header is reached exactly if no header of the same name has a directory that is listed
before its own. -/
theorem reaches_iff_rank (h : Proper paths) (more : List String) {path name : String}
    (hpath : path ∈ paths) (hname : Path.fileName? path = some name) :
    Reaches place paths (includeFlags paths ++ more) path name ↔
      ∀ q ∈ paths, Path.fileName? q = some name → rank place paths path ≤ rank place paths q := by
  have hreaches : Reaches place paths (includeFlags paths ++ more) path name ↔
      (paths.map (site place)).find? (holds place paths name) = some (site place path) := by
    rw [← h.map_found? more hpath hname, Option.map_eq_some_iff]
    rfl
  have hholds : ∀ q ∈ paths, Path.fileName? q = some name →
      holds place paths name (site place q) = true := by
    intro q hq hqname
    exact List.any_eq_true.2 ⟨q, hq, by simp [hqname]⟩
  rw [hreaches, find?_eq_some_iff_idxOf (List.mem_map_of_mem hpath) (hholds path hpath hname)]
  constructor
  · intro hrank q hq hqname
    exact hrank _ (List.mem_map_of_mem hq) (hholds q hq hqname)
  · intro hrank dir hdir hhit
    obtain ⟨q, hq, hqhit⟩ := List.any_eq_true.1 hhit
    obtain ⟨hqname, rfl⟩ : Path.fileName? q = some name ∧ site place q = dir := by
      simpa using hqhit
    exact hrank q hq hqname

/-- All headers are reached exactly if headers of one name share a directory. -/
theorem forall_reaches_iff (h : Proper paths) (more : List String) :
    (∀ e ∈ paths.zip (includes paths),
        Reaches place paths (includeFlags paths ++ more) e.1 e.2) ↔
      ∀ p ∈ paths, ∀ q ∈ paths, Path.fileName? p = Path.fileName? q →
        site place p = site place q := by
  constructor
  · intro hall p hp q hq hpq
    obtain ⟨name, hname⟩ := Option.isSome_iff_exists.1 (h p hp).2
    have hqname := hpq.symm.trans hname
    have hple := (h.reaches_iff_rank more hp hname).1
      (hall _ (h.mem_zip_includes.2 ⟨hp, hname⟩)) q hq hqname
    have hqle := (h.reaches_iff_rank more hq hqname).1
      (hall _ (h.mem_zip_includes.2 ⟨hq, hqname⟩)) p hp hname
    exact (List.idxOf_inj (List.mem_map_of_mem hp)).1 (Nat.le_antisymm hple hqle)
  · rintro hshare ⟨p, name⟩ hmem
    obtain ⟨hp, hname⟩ := h.mem_zip_includes.1 hmem
    refine (h.reaches_iff_rank more hp hname).2 fun q hq hqname => ?_
    have hsame := hshare p hp q hq (hname.trans hqname.symm)
    exact Nat.le_of_eq (by rw [rank, rank, hsame])

end Proper

/-- **Which headers are reached.** If the headers of a set are different files, the include line of
a header leads to its own directory exactly if no header of the same name has a directory that is
listed before. All headers are reached exactly if their names differ. Flags that follow those of
the headers change nothing. -/
theorem reaches_iff {α : Type} [DecidableEq α] (place : String → α) {paths : List String}
    (proper : Proper paths)
    (different : (paths.map fun p => (site place p, Path.fileName? p)).Nodup)
    (more : List String) :
    (includes paths).length = paths.length ∧
    (∀ p name, (p, name) ∈ paths.zip (includes paths) →
      (Reaches place paths (includeFlags paths ++ more) p name ↔
        ∀ q ∈ paths, Path.fileName? q = some name → rank place paths p ≤ rank place paths q)) ∧
    ((∀ e ∈ paths.zip (includes paths),
        Reaches place paths (includeFlags paths ++ more) e.1 e.2) ↔
      (includes paths).Nodup) := by
  refine ⟨proper.length_includes, ?_, ?_⟩
  · intro p name hmem
    obtain ⟨hp, hname⟩ := proper.mem_zip_includes.1 hmem
    exact proper.reaches_iff_rank more hp hname
  · exact (proper.forall_reaches_iff more).trans (proper.share_iff_nodup different)

/-- The hypotheses of `reaches_iff` are satisfiable: headers of different names are reached in two
directories, although the first directory comes up again. -/
theorem reaches_iff_two_directories :
    Proper ["/a/x.hpp", "/b/y.hpp", "/a/z.hpp"] ∧
    (["/a/x.hpp", "/b/y.hpp", "/a/z.hpp"].map fun p => (site id p, Path.fileName? p)).Nodup ∧
    ∀ e ∈ ["/a/x.hpp", "/b/y.hpp", "/a/z.hpp"].zip ["x.hpp", "y.hpp", "z.hpp"],
      Reaches id ["/a/x.hpp", "/b/y.hpp", "/a/z.hpp"] ["-I/a", "-I/b"] e.1 e.2 := by
  have hproper : Proper ["/a/x.hpp", "/b/y.hpp", "/a/z.hpp"] := by
    unfold Proper
    decide +kernel
  have hdifferent : (["/a/x.hpp", "/b/y.hpp", "/a/z.hpp"].map fun p =>
      (site id p, Path.fileName? p)).Nodup := by
    decide +kernel
  have hnames : (includes ["/a/x.hpp", "/b/y.hpp", "/a/z.hpp"]).Nodup := by
    decide +kernel
  obtain ⟨-, -, hreached⟩ := reaches_iff id hproper hdifferent []
  exact ⟨hproper, hdifferent, hreached.2 hnames⟩

/-- Two headers of one name in two directories: the second is an absolute path of a file like the
first, but its include line leads to the first. -/
theorem not_reaches_same_name :
    ["/a/x.hpp", "/b/x.hpp"].Nodup ∧ Proper ["/a/x.hpp", "/b/x.hpp"] ∧
    (∀ p ∈ ["/a/x.hpp", "/b/x.hpp"], (Path.parent? p).isSome = true) ∧
    ("/b/x.hpp", "x.hpp") ∈ ["/a/x.hpp", "/b/x.hpp"].zip (includes ["/a/x.hpp", "/b/x.hpp"]) ∧
    ¬ Reaches id ["/a/x.hpp", "/b/x.hpp"] (includeFlags ["/a/x.hpp", "/b/x.hpp"])
      "/b/x.hpp" "x.hpp" := by
  have hfound : found? id ["/a/x.hpp", "/b/x.hpp"] (includeFlags ["/a/x.hpp", "/b/x.hpp"])
      "x.hpp" = some "/a" := by
    decide +kernel
  refine ⟨by decide, by unfold Proper; decide +kernel, by decide +kernel, by decide +kernel, ?_⟩
  rintro ⟨dir, hdir, hsite⟩
  obtain rfl := Option.some.inj (hfound.symm.trans hdir)
  exact absurd hsite (by decide +kernel)

end Headers
end Bindery
