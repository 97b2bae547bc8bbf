/-
# The hashes of an index

What an index records, it records under a hash. Putting an entry in adds its hash if it is new and
no other (`Index.hashes_upsert`), and sorting only moves entries. So hashes that are pairwise
distinct stay so, and no hash is ever lost.

The entry of a hash is the first one with it. Sorting keeps the order of entries with one hash
(`Index.get?_sort`), so the last entry that was put in under a hash is the entry of the hash. To
put it in again changes nothing (`Index.upsert_of_get?`, `Index.sort_of_sorted`).
-/

import Bindery.Store.Index
import Mathlib.Data.List.Nodup

namespace Bindery
namespace Index

/-- The hashes that an index has entries for, in its order. -/
def hashes (entries : Index) : List String := entries.map (·.hash)

@[simp] theorem hashes_cons (e : IndexEntry) (entries : Index) :
    hashes (e :: entries) = e.hash :: hashes entries := rfl

/-- An entry takes the place of the one with its hash, or a new one at the end. -/
theorem hashes_upsert (entries : Index) (e : IndexEntry) :
    hashes (entries.upsert e) =
      if e.hash ∈ hashes entries then hashes entries else hashes entries ++ [e.hash] := by
  induction entries with
  | nil => rfl
  | cons d r ih =>
    by_cases hd : d.hash = e.hash
    · simp [upsert, hashes, hd]
    · rw [upsert, if_neg hd, hashes_cons, ih, hashes_cons]
      by_cases hr : e.hash ∈ hashes r
      · rw [if_pos hr, if_pos (List.mem_cons_of_mem _ hr)]
      · rw [if_neg hr, if_neg (by simp [hr, Ne.symm hd]), List.cons_append]

theorem hashes_sort_perm (entries : Index) : (hashes entries.sort).Perm (hashes entries) :=
  (List.mergeSort_perm entries entryLe).map _

@[simp] theorem mem_hashes_sort {entries : Index} {hash : String} :
    hash ∈ hashes entries.sort ↔ hash ∈ hashes entries :=
  (hashes_sort_perm entries).mem_iff

@[simp] theorem mem_hashes_upsert {entries : Index} {e : IndexEntry} {hash : String} :
    hash ∈ hashes (entries.upsert e) ↔ hash ∈ hashes entries ∨ hash = e.hash := by
  rw [hashes_upsert]
  by_cases he : e.hash ∈ hashes entries
  · rw [if_pos he]
    refine ⟨Or.inl, ?_⟩
    rintro (h | rfl)
    · exact h
    · exact he
  · rw [if_neg he, List.mem_append, List.mem_singleton]

theorem nodup_hashes_upsert {entries : Index} (h : (hashes entries).Nodup) (e : IndexEntry) :
    (hashes (entries.upsert e)).Nodup := by
  rw [hashes_upsert]
  by_cases he : e.hash ∈ hashes entries
  · rwa [if_pos he]
  · rw [if_neg he]
    exact h.append (List.nodup_singleton _) (List.disjoint_singleton.2 he)

theorem nodup_hashes_sort {entries : Index} (h : (hashes entries).Nodup) :
    (hashes entries.sort).Nodup :=
  (hashes_sort_perm entries).nodup_iff.2 h

/-! ### The entry of a hash -/

theorem get?_upsert (entries : Index) (e : IndexEntry) (hash : String) :
    (entries.upsert e).get? hash = if e.hash = hash then some e else entries.get? hash := by
  induction entries with
  | nil => by_cases h : e.hash = hash <;> simp [upsert, get?, h]
  | cons d r ih =>
    by_cases hd : d.hash = e.hash
    · by_cases h : e.hash = hash <;> simp [upsert, get?, hd, h]
    · rw [upsert, if_neg hd]
      by_cases hdh : d.hash = hash
      · have h : e.hash ≠ hash := fun h => hd (hdh.trans h.symm)
        simp [get?, hdh, h]
      · have hcons : ∀ l : Index, get? (d :: l) hash = get? l hash := by
          intro l
          simp [get?, hdh]
        rw [hcons, hcons, ih]

/-- An entry that is there already takes its own place. -/
theorem upsert_of_get? {entries : Index} {e : IndexEntry} (h : entries.get? e.hash = some e) :
    entries.upsert e = entries := by
  induction entries with
  | nil => exact absurd h nofun
  | cons d r ih =>
    by_cases hd : d.hash = e.hash
    · have hde : d = e := by simpa [get?, hd] using h
      rw [upsert, if_pos hd, hde]
    · rw [upsert, if_neg hd, ih (by simpa [get?, hd] using h)]

/-- The entries stand in the order of their hashes. -/
def Sorted (entries : Index) : Prop := entries.Pairwise fun a b => entryLe a b = true

theorem entryLe_trans (a b c : IndexEntry) (h : entryLe a b = true) (h' : entryLe b c = true) :
    entryLe a c = true := by
  simp only [entryLe, decide_eq_true_eq] at h h' ⊢
  exact String.le_trans h h'

theorem entryLe_total (a b : IndexEntry) : (entryLe a b || entryLe b a) = true := by
  simpa [entryLe] using String.le_total a.hash b.hash

theorem sorted_sort (entries : Index) : entries.sort.Sorted :=
  List.pairwise_mergeSort entryLe_trans entryLe_total entries

theorem sort_of_sorted {entries : Index} (h : entries.Sorted) : entries.sort = entries :=
  List.mergeSort_of_pairwise h

/-- Sorting does not move entries with one hash past each other. -/
theorem filter_sort (entries : Index) (hash : String) :
    entries.sort.filter (·.hash == hash) = entries.filter (·.hash == hash) := by
  have hsorted : (entries.filter (·.hash == hash)).Pairwise fun a b => entryLe a b = true := by
    refine List.pairwise_of_forall_mem_list fun a ha b hb => ?_
    have ha : a.hash = hash := by simpa using (List.mem_filter.1 ha).2
    have hb : b.hash = hash := by simpa using (List.mem_filter.1 hb).2
    rw [entryLe, ha, hb]
    exact decide_eq_true (String.le_refl hash)
  have hsub : (entries.filter (·.hash == hash)).Sublist entries.sort :=
    List.sublist_mergeSort entryLe_trans entryLe_total hsorted List.filter_sublist
  have hfilter := hsub.filter (·.hash == hash)
  rw [List.filter_filter] at hfilter
  simp only [Bool.and_self] at hfilter
  refine (hfilter.eq_of_length ?_).symm
  exact ((List.mergeSort_perm entries entryLe).filter _).length_eq.symm

theorem get?_sort (entries : Index) (hash : String) :
    entries.sort.get? hash = entries.get? hash := by
  rw [get?, get?, ← List.head?_filter, ← List.head?_filter, filter_sort]

end Index
end Bindery
