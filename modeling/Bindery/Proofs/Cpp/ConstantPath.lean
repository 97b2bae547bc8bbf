/-
# Constant class names

In front of a class name, the word `const` is read together with what follows it up to the first
mark: no blank is left between them (`ClassPath.glued`).

| name | read with `const` in front |
| --- | --- |
| `Foo` | `constFoo` |
| `ns::Foo` | `constns::Foo` |
| `::Foo` | `const::Foo` |
| `typename Base<T>::type` | `consttypenameBase<T>::type` |

So `const` leaves no trace if the reference does not reach back to the first identifier and does not
depend on `typename` (`ClassPath.ConstDropped`, `ClassPath.reference_glued_iff`).
-/

import Bindery.Proofs.Cpp.Signs

namespace Bindery
namespace Spelling

open Text

namespace ClassPath

/-- What `const` becomes in front of the path, when no blank separates it from what follows. -/
def glue (p : ClassPath) : List Char := constWord ++ if p.announced then typenameWord else []

/-- The path with `const` in front, as it is read. -/
def glued (p : ClassPath) : ClassPath :=
  if p.rooted then { outer := ⟨p.glue, none⟩ :: p.outer, last := p.last }
  else { p.withFirst (p.glue ++ p.first) with announced := false }

theorem glued_undecorated (p : ClassPath) : p.undecorated.glued = p.glued.undecorated := by
  rcases p with ⟨announced, rooted, outer, last⟩
  cases rooted <;> cases outer <;> rfl

theorem announced_glued (p : ClassPath) : p.glued.announced = false := by
  rcases p with ⟨announced, rooted, outer, last⟩
  cases rooted <;> cases outer <;> rfl

theorem first_glued (p : ClassPath) : constWord <+: p.glued.first := by
  rcases p with ⟨announced, rooted, outer, last⟩
  cases rooted with
  | true => exact List.prefix_append _ _
  | false => cases outer <;> exact (List.prefix_append _ _).trans (List.prefix_append _ _)

theorem not_misread_glued (p : ClassPath) : ¬ p.glued.Misread := by
  rintro ⟨-, -, hbegins⟩
  rcases List.prefix_or_prefix_of_prefix hbegins p.first_glued with h | h <;>
    exact absurd h (by decide)

theorem text_glued (p : ClassPath) : p.glued.text = p.glue ++ p.text := by
  rw [glued]
  cases hrooted : p.rooted with
  | true => simp [text, hrooted, Segment.text, Segment.tokens, Segment.brackets]
  | false =>
    have hfirst : p.text = p.first ++ (p.withFirst []).text := by
      rw [← text_withFirst hrooted, withFirst_first]
    rw [if_neg Bool.false_ne_true, hfirst, ← List.append_assoc, ← text_withFirst hrooted]
    rfl

theorem parts_glue (p : ClassPath) : ∀ c ∈ p.glue, isWordPart c = true := by
  refine List.forall_mem_append.2 ⟨parts_constWord, ?_⟩
  split
  · exact parts_typenameWord
  · exact List.forall_mem_nil _

theorem Readable.glued {p : ClassPath} (h : p.Readable) : p.glued.Readable := by
  have hnonempty : p.glue ≠ [] := by simp [glue, constWord]
  rw [ClassPath.glued]
  split
  · refine ⟨List.forall_mem_cons.2 ⟨⟨hnonempty, p.parts_glue, nofun⟩, h.outer⟩, h.last⟩
  · have hwith : (p.withFirst (p.glue ++ p.first)).Readable :=
      h.withFirst (by simp [hnonempty]) (List.forall_mem_append.2 ⟨p.parts_glue, h.first.2⟩)
    exact ⟨hwith.outer, hwith.last⟩

/-- With `const` in front, a path is read as if the blanks behind it were not there. -/
theorem classReferenceChars_undecorated_const {p : ClassPath} (h : p.WellFormed) {cs : List Char}
    (hcs : tokensFrom [] cs = constWord :: p.tokens) :
    classReferenceChars (Spelling.undecorated cs) = p.glued.reference := by
  have hplain : p.undecorated.glued.read = p.undecorated.glued :=
    read_of_not_misread (not_misread_glued _)
  have hread : p.undecorated.glued.read.Readable := by
    rw [hplain]
    exact h.readable.undecorated.glued
  rw [← reference_undecorated, ← glued_undecorated, ← hplain]
  refine classReferenceChars_of_text hread ?_ ?_
  · have hglue : Spelling.undecorated p.glue = p.glue :=
      (unsigned_of_parts p.parts_glue).undecorated
    have hflat := flatten_tokensFrom cs []
    rw [hcs, List.flatten_cons, flatten_tokens, List.nil_append, ← List.append_assoc] at hflat
    rw [filter_undecorated, ← hflat, undecorated_append, ← h.readable.text_undecorated,
      announced_glued, text_glued]
    exact congrArg (· ++ _) hglue
  · have hkept : ∀ u ∈ (constWord :: p.tokens).take 2, Unsigned u := by
      intro u hu
      rcases List.mem_cons.1 hu with rfl | hu
      · decide
      · exact h.readable.unsigned_take u (List.take_subset_take_left p.tokens (by decide) hu)
    rw [prefix_trim_undecorated_iff hcs hkept (by decide) parts_typenameWord, announced_glued]
    refine iff_of_false (by decide) ?_
    rintro (hannounced | hmisread)
    · exact Bool.false_ne_true hannounced
    · exact not_misread_glued _ hmisread

/-! ### What is lost with the glue -/

/-- `const` in front of the path is dropped together with what it is glued to, and the word
`typename` that is lost with it changes nothing. -/
structure ConstDropped (p : ClassPath) : Prop where
  single : p.outer = [] → p.rooted = true
  nested : p.outer ≠ [] → p.read.nested = true →
    p.throughInstance = true ∧ (p.rooted = true ∨ 2 ≤ p.outer.length)

theorem reference_of_owner {p : ClassPath} {owner : Segment}
    (h : p.outer.getLast? = some owner) :
    p.reference = if p.nested then owner.name ++ '.' :: p.last.name else p.last.name := by
  rw [reference, h]

theorem nested_glued (p : ClassPath) : p.glued.nested = p.throughInstance := by
  rw [nested, announced_glued, Bool.false_or]
  rcases p with ⟨announced, rooted, outer, last⟩
  cases rooted <;> cases outer <;> simp [glued, withFirst, throughInstance]

theorem nested_read_of_throughInstance {p : ClassPath} (h : p.throughInstance = true) :
    p.read.nested = true := by
  by_cases hmisread : p.Misread
  · rw [announced_of_misread hmisread]
    rfl
  · rw [read_of_not_misread hmisread, nested, h, Bool.or_true]

theorem length_glue_pos (p : ClassPath) : 0 < p.glue.length := by
  simp [glue, constWord]

/-- Of two or more identifiers, only the first one may be read as another, and that is no longer. -/
theorem exists_outer_read {p : ClassPath} {s : Segment} {l : List Segment} (h : p.outer = s :: l) :
    ∃ name, name.length ≤ s.name.length ∧ p.read.outer = { s with name } :: l ∧
      p.read.last = p.last ∧ (p.rooted = true → name = s.name) := by
  by_cases hmisread : p.Misread
  · refine ⟨s.name.drop typenameWord.length, by simp, ?_, ?_, fun hrooted => ?_⟩
    · simp [announced_of_misread hmisread, withFirst, first, h]
    · simp [announced_of_misread hmisread, withFirst, h]
    · exact absurd (hmisread.2.1.symm.trans hrooted) Bool.false_ne_true
  · rw [read_of_not_misread hmisread]
    exact ⟨s.name, Nat.le_refl _, h, rfl, fun _ => rfl⟩

/-- The last but one identifier is read as it is and is not glued, unless it is the first one. -/
theorem exists_owners {p : ClassPath} (h : p.outer ≠ []) :
    ∃ g o, p.glued.outer.getLast? = some g ∧ p.read.outer.getLast? = some o ∧
      p.glued.last = p.last ∧ p.read.last = p.last ∧
      (g.name = o.name ↔ p.rooted = true ∨ 2 ≤ p.outer.length) := by
  obtain ⟨s, l, houter⟩ := List.exists_cons_of_ne_nil h
  obtain ⟨name, hshort, hread, hlast, hrooted⟩ := exists_outer_read houter
  cases hroot : p.rooted with
  | true =>
    obtain ⟨o, ho⟩ : ∃ o, (s :: l).getLast? = some o :=
      ⟨_, List.getLast?_eq_some_getLast (List.cons_ne_nil s l)⟩
    refine ⟨o, o, ?_, ?_, by simp [glued, hroot], hlast, iff_of_true rfl (.inl rfl)⟩
    · rw [glued, if_pos hroot, houter, List.getLast?_cons_cons, ho]
    · rw [hread, hrooted hroot, ho]
  | false =>
    have hglued : p.glued.outer = { s with name := p.glue ++ s.name } :: l := by
      simp [glued, hroot, withFirst, first, houter]
    have hlast' : p.glued.last = p.last := by simp [glued, hroot, withFirst, houter]
    rw [hglued, hread, houter]
    cases l with
    | nil =>
      refine ⟨{ s with name := p.glue ++ s.name }, { s with name }, rfl, rfl, hlast', hlast,
        iff_of_false (fun heq => ?_) (by simp)⟩
      have hglue := p.length_glue_pos
      have hlength : (p.glue ++ s.name).length = name.length := congrArg List.length heq
      rw [List.length_append] at hlength
      omega
    | cons o l =>
      obtain ⟨owner, howner⟩ : ∃ owner, (o :: l).getLast? = some owner :=
        ⟨_, List.getLast?_eq_some_getLast (List.cons_ne_nil o l)⟩
      refine ⟨owner, owner, ?_, ?_, hlast', hlast, iff_of_true rfl (by simp)⟩ <;>
        rw [List.getLast?_cons_cons, howner]

/-- A single identifier is glued unless `::` stands in front of it. -/
theorem reference_glued_of_single {p : ClassPath} (h : p.outer = []) :
    p.glued.reference = p.read.reference ↔ p.rooted = true := by
  rcases p with ⟨announced, rooted, outer, last⟩
  obtain rfl : outer = [] := h
  cases rooted with
  | true =>
    have hplain : ¬ (ClassPath.mk announced true [] last).Misread :=
      fun h => absurd h.2.1.symm Bool.false_ne_true
    rw [read_of_not_misread hplain, reference_of_owner rfl, nested_glued]
    exact iff_of_true rfl rfl
  | false =>
    refine iff_of_false (fun heq => ?_) Bool.false_ne_true
    have hshort : (ClassPath.mk announced false [] last).read.reference.length ≤
        last.name.length := by
      by_cases hmisread : (ClassPath.mk announced false [] last).Misread
      · rw [announced_of_misread hmisread]
        exact (List.drop_sublist _ _).length_le
      · rw [read_of_not_misread hmisread]
        exact Nat.le_refl _
    have hglued : (ClassPath.mk announced false [] last).glue ++ last.name =
        (ClassPath.mk announced false [] last).read.reference := heq
    have hglue := length_glue_pos (ClassPath.mk announced false [] last)
    rw [← hglued, List.length_append] at hshort
    omega

/-- A path of two or more identifiers is read alike if it is nested alike, and the last but one is
not glued where this counts. -/
theorem reference_glued_of_outer {p : ClassPath} (h : p.outer ≠ []) :
    p.glued.reference = p.read.reference ↔ (p.read.nested = true →
      p.throughInstance = true ∧ (p.rooted = true ∨ 2 ≤ p.outer.length)) := by
  obtain ⟨g, o, hg, ho, hglast, holast, hsame⟩ := exists_owners h
  have hlonger : ∀ w : List Char, w ++ '.' :: p.last.name ≠ p.last.name := fun w heq => by
    have := congrArg List.length heq
    rw [List.length_append, List.length_cons] at this
    omega
  rw [reference_of_owner hg, reference_of_owner ho, nested_glued, hglast, holast, ← hsame]
  cases hthrough : p.throughInstance with
  | true => simp [nested_read_of_throughInstance hthrough]
  | false =>
    cases hnested : p.read.nested with
    | true => simpa using (hlonger o.name).symm
    | false => simp

/-- **`const` in front of a path** leaves no trace in the reference if and only if it is dropped. -/
theorem reference_glued_iff (p : ClassPath) :
    p.glued.reference = p.read.reference ↔ p.ConstDropped := by
  by_cases houter : p.outer = []
  · rw [reference_glued_of_single houter]
    exact ⟨fun h => ⟨fun _ => h, fun hne => absurd houter hne⟩, fun h => h.single houter⟩
  · rw [reference_glued_of_outer houter]
    exact ⟨fun h => ⟨fun hnil => absurd hnil houter, fun _ => h⟩, fun h => h.nested houter⟩

/-! ### Ends of references -/

/-- A reference ends like `const` exactly if the last identifier does. -/
theorem suffix_reference_iff {p : ClassPath} (h : p.last.name ≠ []) :
    constWord <:+ p.reference ↔ constWord <:+ p.last.name := by
  rw [reference]
  split
  · rename_i owner _
    split
    · rw [← List.singleton_append, ← List.append_assoc]
      refine suffix_append_iff h fun c hc => ?_
      rw [List.getLast?_concat] at hc
      exact Option.some.inj hc ▸ by decide
    · exact Iff.rfl
  · exact Iff.rfl

theorem reference_ne_nil {p : ClassPath} (h : p.last.name ≠ []) : p.reference ≠ [] := by
  rw [reference]
  split
  · split
    · simp
    · exact h
  · exact h

theorem WellFormed.suffix_read_iff {p : ClassPath} (h : p.WellFormed) :
    constWord <:+ p.read.reference ↔ constWord <:+ p.last.name := by
  rw [suffix_reference_iff h.readable_read.last.nonempty]
  by_cases hmisread : p.Misread
  · have hname := h.readable_read.last.nonempty
    rw [announced_of_misread hmisread] at hname ⊢
    rcases p with ⟨announced, rooted, outer, last⟩
    cases outer with
    | cons s l => exact Iff.rfl
    | nil =>
      obtain ⟨r, hr⟩ : typenameWord <+: last.name := hmisread.2.2
      have hdrop : last.name.drop typenameWord.length = r := by rw [← hr, List.drop_left]
      show constWord <:+ last.name.drop typenameWord.length ↔ constWord <:+ last.name
      have hrest : r ≠ [] := hdrop ▸ hname
      rw [hdrop, ← hr, suffix_append_iff hrest]
      rintro c ⟨⟩
      decide
  · rw [read_of_not_misread hmisread]

theorem WellFormed.suffix_glued_iff {p : ClassPath} (h : p.WellFormed) :
    constWord <:+ p.glued.reference ↔ constWord <:+ p.last.name := by
  rw [suffix_reference_iff h.readable.glued.last.nonempty]
  have hglue : ∀ c ∈ p.glue.getLast?, c ∉ constWord.dropLast := by
    rw [glue]
    cases p.announced <;> rintro c ⟨⟩ <;> decide
  rcases p with ⟨announced, rooted, outer, last⟩
  cases rooted with
  | true => exact Iff.rfl
  | false =>
    cases outer with
    | cons s l => exact Iff.rfl
    | nil => exact suffix_append_iff h.last.name.nonempty hglue

end ClassPath
end Spelling
end Bindery
