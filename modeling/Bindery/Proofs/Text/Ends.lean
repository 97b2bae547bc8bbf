/-
# The ends of a text

What was put in front of a text or behind it can be taken off again, and taking off what is not
there changes nothing.
-/

import Bindery.Text.Blank

namespace Bindery
namespace Text

theorem afterStart?_append (start cs : List Char) : afterStart? start (start ++ cs) = some cs := by
  rw [afterStart?, if_pos (List.isPrefixOf_iff_prefix.2 (List.prefix_append start cs)),
    List.drop_left]

theorem beforeEnd?_append (cs stop : List Char) : beforeEnd? stop (cs ++ stop) = some cs := by
  rw [beforeEnd?, if_pos (List.isSuffixOf_iff_suffix.2 (List.suffix_append cs stop)),
    List.length_append, Nat.add_sub_cancel, List.take_left]

/-- Of a text, an end is dropped as far as its characters go, if the text ends otherwise. -/
theorem dropEndWhile_append {p : Char → Bool} {cs tail : List Char} (htail : ∀ c ∈ tail, p c = true)
    (hlast : ∀ c ∈ cs.getLast?, p c = false) : dropEndWhile p (cs ++ tail) = cs := by
  rw [dropEndWhile, List.reverse_append, List.dropWhile_append_of_pos (by simpa using htail)]
  rw [← List.head?_reverse] at hlast
  rw [List.reverse_eq_iff]
  cases hr : cs.reverse with
  | nil => rfl
  | cons c r =>
    rw [hr] at hlast
    exact List.dropWhile_cons_of_neg (Bool.eq_false_iff.1 (hlast c rfl))

/-- A text that does not end in `p` is kept as far as that. -/
theorem dropEndWhile_append_of_last {p : Char → Bool} {w : List Char}
    (hlast : ∀ c ∈ w.getLast?, p c = false) (r : List Char) :
    dropEndWhile p (w ++ r) = w ++ dropEndWhile p r := by
  have hself : w.reverse.dropWhile p = w.reverse := by
    rw [← List.head?_reverse] at hlast
    cases hr : w.reverse with
    | nil => rfl
    | cons c r =>
      rw [hr] at hlast
      exact List.dropWhile_cons_of_neg (Bool.eq_false_iff.1 (hlast c rfl))
  rw [dropEndWhile, List.reverse_append, List.dropWhile_append]
  split
  · rename_i hempty
    rw [dropEndWhile, List.isEmpty_iff.1 hempty, hself, List.reverse_reverse, List.reverse_nil,
      List.append_nil]
  · rw [List.reverse_append, List.reverse_reverse, dropEndWhile]

/-- What is dropped in two goes is dropped in one. -/
theorem dropEndWhile_dropEndWhile {p q : Char → Bool} (h : ∀ c, q c = true → p c = true)
    (cs : List Char) : dropEndWhile p (dropEndWhile q cs) = dropEndWhile p cs := by
  have hstart : ∀ ds : List Char, (ds.dropWhile q).dropWhile p = ds.dropWhile p := by
    intro ds
    induction ds with
    | nil => rfl
    | cons c r ih =>
      by_cases hc : q c = true
      · rw [List.dropWhile_cons_of_pos hc, ih, List.dropWhile_cons_of_pos (h c hc)]
      · rw [List.dropWhile_cons_of_neg hc]
  rw [dropEndWhile, dropEndWhile, List.reverse_reverse, hstart, ← dropEndWhile]

theorem dropEndWhile_prefix (p : Char → Bool) (cs : List Char) : dropEndWhile p cs <+: cs := by
  rw [← List.reverse_suffix, dropEndWhile, List.reverse_reverse]
  exact List.dropWhile_suffix p

theorem filter_dropWhile (p : Char → Bool) (cs : List Char) :
    (cs.dropWhile p).filter (!p ·) = cs.filter (!p ·) := by
  induction cs with
  | nil => rfl
  | cons c r ih =>
    by_cases hc : p c = true
    · rw [List.dropWhile_cons_of_pos hc, ih, List.filter_cons_of_neg (by simp [hc])]
    · rw [List.dropWhile_cons_of_neg hc]

theorem filter_dropEndWhile (p : Char → Bool) (cs : List Char) :
    (dropEndWhile p cs).filter (!p ·) = cs.filter (!p ·) := by
  rw [dropEndWhile, List.filter_reverse, filter_dropWhile, List.filter_reverse,
    List.reverse_reverse]

/-- Nothing but blanks is trimmed off. -/
theorem filter_trim (cs : List Char) : (trim cs).filter (!isBlank ·) = cs.filter (!isBlank ·) := by
  rw [trim, trimEnd, filter_dropEndWhile, filter_dropWhile]

/-- Nothing is trimmed off a text with no blank at its ends. -/
theorem trim_eq_self {cs : List Char} (hfirst : ∀ c ∈ cs.head?, isBlank c = false)
    (hlast : ∀ c ∈ cs.getLast?, isBlank c = false) : trim cs = cs := by
  have hstart : cs.dropWhile isBlank = cs := by
    cases cs with
    | nil => rfl
    | cons c r => exact List.dropWhile_cons_of_neg (Bool.eq_false_iff.1 (hfirst c rfl))
  have hend : dropEndWhile isBlank (cs ++ []) = cs :=
    dropEndWhile_append (List.forall_mem_nil _) hlast
  rw [trim, hstart, trimEnd]
  rwa [List.append_nil] at hend

/-- Blanks in front of a text go as far as they do. -/
theorem dropWhile_gap {gap w : List Char} (hgap : ∀ c ∈ gap, isBlank c = true) (hw : w ≠ [])
    (hvisible : ∀ c ∈ w, isBlank c = false) (r : List Char) :
    (gap ++ (w ++ r)).dropWhile isBlank = w ++ r := by
  rw [List.dropWhile_append_of_pos hgap]
  cases w with
  | nil => exact absurd rfl hw
  | cons c w =>
    exact List.dropWhile_cons_of_neg (Bool.eq_false_iff.1 (hvisible c List.mem_cons_self))

/-- A word stays as it is, with blanks in front of it and anything behind. -/
theorem trim_append {gap w : List Char} (hgap : ∀ c ∈ gap, isBlank c = true) (hw : w ≠ [])
    (hvisible : ∀ c ∈ w, isBlank c = false) (r : List Char) :
    trim (gap ++ (w ++ r)) = w ++ trimEnd r := by
  have hlast : ∀ c ∈ w.getLast?, isBlank c = false := fun c hc =>
    hvisible c (List.mem_of_mem_getLast? hc)
  rw [trim, dropWhile_gap hgap hw hvisible, trimEnd, dropEndWhile_append_of_last hlast]
  rfl

/-! ### An end that is dropped as often as it is there -/

theorem withoutEnds_of_not_suffix {stop cs : List Char} (h : ¬ stop <:+ cs) :
    withoutEnds stop cs = cs := by
  rw [withoutEnds, dif_neg fun hand => h (List.isSuffixOf_iff_suffix.1 hand.2)]

theorem withoutEnds_append_self {stop : List Char} (hstop : stop ≠ []) (cs : List Char) :
    withoutEnds stop (cs ++ stop) = withoutEnds stop cs := by
  rw [withoutEnds, dif_pos ⟨hstop, List.isSuffixOf_iff_suffix.2 (List.suffix_append cs stop)⟩,
    List.length_append, Nat.add_sub_cancel, List.take_left]

/-- A text is what is left, and the end as often as it was dropped. Induction on the length of the
text. -/
theorem exists_withoutEnds {stop : List Char} (hstop : stop ≠ []) (cs : List Char) :
    ¬ stop <:+ withoutEnds stop cs ∧
      ∃ n, cs = withoutEnds stop cs ++ (List.replicate n stop).flatten := by
  by_cases h : stop <:+ cs
  · obtain ⟨r, rfl⟩ := h
    have hshorter : r.length < (r ++ stop).length := by
      have := List.length_pos_iff.2 hstop
      rw [List.length_append]
      omega
    obtain ⟨hends, n, hn⟩ := exists_withoutEnds hstop r
    rw [withoutEnds_append_self hstop]
    refine ⟨hends, n + 1, ?_⟩
    rw [List.replicate_succ', List.flatten_append, ← List.append_assoc, ← hn]
    simp
  · rw [withoutEnds_of_not_suffix h]
    exact ⟨h, 0, by simp⟩
termination_by cs.length

theorem not_suffix_withoutEnds {stop : List Char} (hstop : stop ≠ []) (cs : List Char) :
    ¬ stop <:+ withoutEnds stop cs :=
  (exists_withoutEnds hstop cs).1

theorem withoutEnds_prefix {stop : List Char} (hstop : stop ≠ []) (cs : List Char) :
    withoutEnds stop cs <+: cs := by
  obtain ⟨-, n, hn⟩ := exists_withoutEnds hstop cs
  exact ⟨_, hn.symm⟩

/-- What is not empty ends with a text if and only if it does so behind characters of which the last
one is not in that text, except at its end. -/
theorem suffix_append_iff {stop u w : List Char} (hw : w ≠ [])
    (hu : ∀ c ∈ u.getLast?, c ∉ stop.dropLast) : stop <:+ u ++ w ↔ stop <:+ w := by
  refine ⟨fun h => ?_, fun h => h.trans (List.suffix_append u w)⟩
  rcases List.suffix_or_suffix_of_suffix h (List.suffix_append u w) with hstop | ⟨v, hv⟩
  · exact hstop
  · rcases List.eq_nil_or_concat v with rfl | ⟨v', c, rfl⟩
    · exact hv ▸ List.suffix_refl w
    · obtain ⟨u', hu'⟩ := h
      rw [← hv, ← List.append_assoc, List.append_cancel_right_eq, List.concat_eq_append,
        ← List.append_assoc] at hu'
      refine absurd ?_ (hu c (by rw [← hu', List.getLast?_concat]; rfl))
      rw [← hv, List.dropLast_append_of_ne_nil hw]
      simp

theorem withoutEnds_append {stop u : List Char} (hstop : stop ≠ [])
    (hu : ∀ c ∈ u.getLast?, c ∉ stop) (w : List Char) :
    withoutEnds stop (u ++ w) = u ++ withoutEnds stop w := by
  by_cases h : stop <:+ w
  · obtain ⟨r, rfl⟩ := h
    have hshorter : r.length < (r ++ stop).length := by
      have := List.length_pos_iff.2 hstop
      rw [List.length_append]
      omega
    rw [← List.append_assoc, withoutEnds_append_self hstop, withoutEnds_append_self hstop,
      withoutEnds_append hstop hu r]
  · have hends : ¬ stop <:+ u ++ w := by
      cases w with
      | nil =>
        rw [List.append_nil]
        intro hsuffix
        obtain ⟨c, hc⟩ : ∃ c, stop.getLast? = some c := ⟨_, List.getLast?_eq_some_getLast hstop⟩
        refine hu c ?_ (List.mem_of_mem_getLast? hc)
        obtain ⟨r, rfl⟩ := hsuffix
        rw [List.getLast?_append, hc]
        rfl
      | cons c w =>
        rwa [suffix_append_iff (List.cons_ne_nil c w) fun d hd hmem =>
          hu d hd (List.dropLast_subset stop hmem)]
    rw [withoutEnds_of_not_suffix h, withoutEnds_of_not_suffix hends]
termination_by w.length

/-- A text without blanks. -/
def Tight (cs : List Char) : Prop := ∀ c ∈ cs, isBlank c = false

-- not by a search through all characters, for which there is an instance as well
instance (cs : List Char) : Decidable (Tight cs) :=
  decidable_of_iff (cs.all (!isBlank ·) = true) (by simp [Tight])

theorem Tight.append {cs ds : List Char} (hc : Tight cs) (hd : Tight ds) : Tight (cs ++ ds) :=
  List.forall_mem_append.2 ⟨hc, hd⟩

theorem Tight.trim {cs : List Char} (h : Tight cs) : trim cs = cs :=
  trim_eq_self (fun c hc => h c (List.mem_of_mem_head? hc))
    fun c hc => h c (List.mem_of_mem_getLast? hc)

end Text
end Bindery
