/-
# Marks in a text

A text is cut at a mark: at the first, if the mark does not occur before it, or at the last, if it
does not occur behind it. Whatever else stands in the text, both parts are found again.
-/

namespace Bindery

/-- A text up to a mark that does not occur in another up to its own: either both are the same, or
the other mark comes first. -/
theorem append_cons_cases {a b : Char} {p q r s : List Char} (hq : a ∉ q)
    (h : p ++ a :: r = q ++ b :: s) :
    (p = q ∧ a = b ∧ r = s) ∨ ∃ t, p = q ++ b :: t ∧ s = t ++ a :: r := by
  rcases List.append_eq_append_iff.1 h with ⟨t, rfl, ht⟩ | ⟨t, rfl, ht⟩
  · cases t with
    | nil => exact .inl ⟨(List.append_nil p).symm, List.cons.inj ht⟩
    | cons c t =>
      obtain rfl := (List.cons.inj ht).1
      exact absurd (List.mem_append_right p (List.mem_cons_self ..)) hq
  · cases t with
    | nil =>
      obtain ⟨rfl, rfl⟩ := List.cons.inj ht
      exact .inl ⟨List.append_nil q, rfl, rfl⟩
    | cons c t =>
      obtain ⟨rfl, rfl⟩ := List.cons.inj ht
      exact .inr ⟨t, rfl, rfl⟩

/-- The first mark is found. -/
theorem eq_of_append_first {mark : Char} {p q r s : List Char} (hp : mark ∉ p) (hq : mark ∉ q)
    (h : p ++ mark :: r = q ++ mark :: s) : p = q ∧ r = s := by
  rcases append_cons_cases hq h with ⟨hpq, -, hrs⟩ | ⟨t, rfl, -⟩
  · exact ⟨hpq, hrs⟩
  · exact absurd (List.mem_append_right q (List.mem_cons_self ..)) hp

/-- The last mark is found. -/
theorem eq_of_append_last {mark : Char} {p q r s : List Char} (hr : mark ∉ r) (hs : mark ∉ s)
    (h : p ++ mark :: r = q ++ mark :: s) : p = q ∧ r = s := by
  rcases List.append_eq_append_iff.1 h with ⟨t, rfl, ht⟩ | ⟨t, rfl, ht⟩
  · cases t with
    | nil => exact ⟨(List.append_nil p).symm, (List.cons.inj ht).2⟩
    | cons c t =>
      rw [(List.cons.inj ht).2] at hr
      exact absurd (List.mem_append_right t (List.mem_cons_self ..)) hr
  · cases t with
    | nil => exact ⟨List.append_nil q, (List.cons.inj ht).2.symm⟩
    | cons c t =>
      rw [(List.cons.inj ht).2] at hs
      exact absurd (List.mem_append_right t (List.mem_cons_self ..)) hs

/-- A word without the mark comes first only if it does so before the mark. -/
theorem not_prefix_append_mark {mark : Char} {w p : List Char} (hw : mark ∉ w) (hp : ¬ w <+: p)
    (r : List Char) : ¬ w <+: p ++ mark :: r := by
  rintro ⟨t, ht⟩
  rcases List.append_eq_append_iff.1 ht with ⟨u, rfl, -⟩ | ⟨u, rfl, hu⟩
  · exact hp (List.prefix_append w u)
  · cases u with
    | nil => exact hp (by simp)
    | cons c u =>
      obtain rfl := (List.cons.inj hu).1
      exact hw (List.mem_append_right p (List.mem_cons_self ..))

end Bindery
