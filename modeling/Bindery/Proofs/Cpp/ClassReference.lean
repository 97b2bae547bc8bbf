/-
# The reference that a class name stands for

A reference is read off the path of a class name:

| path | reference |
| --- | --- |
| of two or more identifiers, behind `typename` | the last two, with a dot between them |
| with arguments behind an earlier identifier and none behind the last | the same |
| any other | the last identifier |

The text is read without looking at words, though: a first identifier that begins like `typename`
is taken for this word with the rest of the identifier behind it (`ClassPath.read`). So the
reference is the one of the path, unless this happens to a path without the word and without a
leading `::` (`ClassPath.Misread`). Then it is if and only if the identifier is not among the last
two and the reference is nested anyway (`ClassPath.classReference_eq_iff`).
-/

import Bindery.Proofs.Cpp.ClassPath
import Bindery.Proofs.Text.Ends

namespace Bindery
namespace Spelling

open Text

namespace ClassPath

/-- An earlier identifier has template arguments and the last one has none. -/
def throughInstance (p : ClassPath) : Bool := p.outer.any (·.args.isSome) && p.last.args.isNone

/-- The path names something nested in a class that its last but one identifier names. -/
def nested (p : ClassPath) : Bool := p.announced || p.throughInstance

/-- The reference that a path stands for. -/
def reference (p : ClassPath) : List Char :=
  match p.outer.getLast? with
  | some owner => if p.nested then owner.name ++ '.' :: p.last.name else p.last.name
  | none => p.last.name

/-- A path that is not announced begins with an identifier that begins like `typename`. -/
def Misread (p : ClassPath) : Prop :=
  p.announced = false ∧ p.rooted = false ∧ typenameWord <+: p.first

instance (p : ClassPath) : Decidable p.Misread :=
  inferInstanceAs (Decidable (_ ∧ _ ∧ _))

/-- The path as it is read. -/
def read (p : ClassPath) : ClassPath :=
  if p.Misread then
    { p.withFirst (p.first.drop typenameWord.length) with announced := true }
  else p

end ClassPath

/-! ### Reading a text without blanks -/

/-- The reference read off a text without blanks and without the word `typename`. -/
def readReference (announced : Bool) (compact : List Char) : List Char :=
  referenceOf (announced || (compact.contains '<' && !(lastSegment compact).contains '>'))
    ((segments (outside 0 compact)).filter (· ≠ []))

/-- What counts of a text is whether it begins with `typename`, and what it is without blanks. -/
theorem classReferenceChars_eq (cs : List Char) :
    classReferenceChars cs =
      if typenameWord <+: trim cs then
        readReference true ((cs.filter (!isBlank ·)).drop typenameWord.length)
      else readReference false (cs.filter (!isBlank ·)) := by
  rw [classReferenceChars, ← filter_trim cs]
  by_cases h : typenameWord <+: trim cs
  · rw [if_pos h, afterStart?, if_pos (List.isPrefixOf_iff_prefix.2 h),
      List.isPrefixOf_iff_prefix.2 h]
    obtain ⟨r, hr⟩ := h
    have hword : typenameWord.filter (!isBlank ·) = typenameWord := by decide
    rw [← hr, List.filter_append, hword, List.drop_left, Option.getD_some, List.drop_left]
    rfl
  · have hbegins : typenameWord.isPrefixOf (trim cs) = false :=
      Bool.eq_false_iff.2 (mt List.isPrefixOf_iff_prefix.1 h)
    rw [if_neg h, afterStart?, hbegins]
    rfl

namespace ClassPath

theorem Readable.contains_open {p : ClassPath} (h : p.Readable) :
    p.text.contains '<' = (p.outer.any (·.args.isSome) || p.last.args.isSome) := by
  rw [Bool.eq_iff_iff, List.contains_iff_mem, Bool.or_eq_true, List.any_eq_true, text,
    List.mem_append, List.mem_append, h.last.mem_text_open]
  have hroot : '<' ∉ (if p.rooted then scope else []) := by split <;> decide
  have hscope : '<' ∉ scope := by decide
  simp only [hroot, false_or, List.mem_flatMap, List.mem_append, hscope, or_false]
  refine or_congr ⟨?_, ?_⟩ Iff.rfl
  · rintro ⟨s, hs, hopen⟩
    exact ⟨s, hs, (h.outer s hs).mem_text_open.1 hopen⟩
  · rintro ⟨s, hs, hargs⟩
    exact ⟨s, hs, (h.outer s hs).mem_text_open.2 hargs⟩

/-- What stands behind the last `::` of the text closes a group exactly if the last identifier has
arguments, also if there is a `::` among these. -/
theorem Readable.contains_close {p : ClassPath} (h : p.Readable) :
    (lastSegment p.text).contains '>' = p.last.args.isSome := by
  rw [Bool.eq_iff_iff, List.contains_iff_mem]
  cases hargs : p.last.args with
  | none =>
    have hlast : lastSegment p.text = p.last.name := by
      rw [text_eq, Segment.text_of_none hargs]
      have hcolon : ':' ∉ p.last.name := h.last.not_mem (by decide)
      rcases p.outerText_cases with hnil | ⟨t, ht⟩
      · rw [hnil, List.nil_append, lastSegment, afterScope_of_not_mem hcolon]
      · rw [ht, List.append_assoc, lastSegment_append_scope hcolon]
    rw [hlast]
    simpa using h.last.not_mem (by decide)
  | some ts =>
    have hends : p.text = (p.outerText ++ p.last.name ++ '<' :: ts.flatten) ++ ['>'] := by
      simp [text_eq, Segment.text_of_some hargs, group]
    rw [hends]
    exact iff_of_true (mem_lastSegment_concat (by decide) _) rfl

/-- **The reference of a path is read off its text.** -/
theorem Readable.readReference_text {p : ClassPath} (h : p.Readable) :
    readReference p.announced p.text = p.reference := by
  have hnested : (p.announced || (p.text.contains '<' && !(lastSegment p.text).contains '>')) =
      p.nested := by
    rw [h.contains_open, h.contains_close, nested, throughInstance]
    cases p.announced <;> cases p.outer.any (·.args.isSome) <;> cases p.last.args <;> rfl
  rw [readReference, hnested, h.names, reference]
  rcases List.eq_nil_or_concat p.outer with hnil | ⟨l, o, hconcat⟩
  · rw [hnil]
    rfl
  · rw [List.concat_eq_append] at hconcat
    rw [hconcat, List.getLast?_concat, referenceOf, List.reverse_append, List.map_append,
      List.reverse_append]
    rfl

/-! ### Reading a path with blanks -/

theorem announced_of_misread {p : ClassPath} (h : p.Misread) : p.read =
    { p.withFirst (p.first.drop typenameWord.length) with announced := true } :=
  if_pos h

theorem read_of_not_misread {p : ClassPath} (h : ¬ p.Misread) : p.read = p := if_neg h

theorem WellFormed.first_ne_typename {p : ClassPath} (h : p.WellFormed) :
    p.first ≠ typenameWord := by
  rcases p with ⟨announced, rooted, outer, last⟩
  cases outer with
  | nil => exact h.last.name.notTypename
  | cons s l => exact (h.outer s List.mem_cons_self).name.notTypename

theorem WellFormed.readable_read {p : ClassPath} (h : p.WellFormed) : p.read.Readable := by
  by_cases hmisread : p.Misread
  · rw [announced_of_misread hmisread]
    obtain ⟨-, -, rest, hrest⟩ := hmisread
    have hdrop : p.first.drop typenameWord.length = rest := by rw [← hrest, List.drop_left]
    have hnonempty : rest ≠ [] := by
      rintro rfl
      exact h.first_ne_typename (by rw [← hrest, List.append_nil])
    have hparts : ∀ c ∈ rest, isWordPart c = true := fun c hc =>
      h.readable.first.2 c (hrest ▸ List.mem_append_right _ hc)
    have hread := h.readable.withFirst hnonempty hparts
    rw [hdrop]
    exact ⟨hread.outer, hread.last⟩
  · rw [read_of_not_misread hmisread]
    exact h.readable

theorem text_misread {p : ClassPath} (h : p.Misread) :
    p.read.text = p.text.drop typenameWord.length := by
  rw [announced_of_misread h]
  obtain ⟨-, hrooted, rest, hrest⟩ := h
  have htext : p.text = p.first ++ (p.withFirst []).text := by
    rw [← text_withFirst hrooted, withFirst_first]
  have hdrop : p.first.drop typenameWord.length = rest := by rw [← hrest, List.drop_left]
  rw [htext, hdrop, ← hrest, List.append_assoc, List.drop_left]
  exact text_withFirst hrooted rest

/-- **The reference that is read** is that of the path as it is read. Of the text it counts what it
is without blanks, and whether it begins like `typename`. -/
theorem classReferenceChars_of_text {p : ClassPath} (h : p.read.Readable) {cs : List Char}
    (hcompact : cs.filter (!isBlank ·) = (if p.announced then typenameWord else []) ++ p.text)
    (hstart : typenameWord <+: trim cs ↔ p.announced = true ∨ p.Misread) :
    classReferenceChars cs = p.read.reference := by
  rw [classReferenceChars_eq, hcompact, ← h.readReference_text]
  cases hannounced : p.announced with
  | true =>
    have hnot : ¬ p.Misread := fun hmisread => Bool.false_ne_true (hmisread.1.symm.trans hannounced)
    rw [if_pos (hstart.2 (.inl hannounced)), if_pos rfl, List.drop_left, read_of_not_misread hnot,
      hannounced]
  | false =>
    rw [if_neg Bool.false_ne_true, List.nil_append]
    by_cases hmisread : p.Misread
    · rw [if_pos (hstart.2 (.inr hmisread)), ← text_misread hmisread, announced_of_misread hmisread]
    · have hplain : ¬ typenameWord <+: trim cs := fun hbegins =>
        (hstart.1 hbegins).elim (fun h => Bool.false_ne_true (hannounced.symm.trans h)) hmisread
      rw [if_neg hplain, read_of_not_misread hmisread, hannounced]

/-- The first token of a path begins like `typename` if the path is announced or misread. -/
theorem prefix_first_iff {p : ClassPath} {t : List Char} {ts : List (List Char)}
    (h : p.tokens = t :: ts) : typenameWord <+: t ↔ p.announced = true ∨ p.Misread := by
  cases hannounced : p.announced with
  | true =>
    rw [tokens, if_pos hannounced] at h
    obtain rfl := (List.cons.inj h).1
    exact iff_of_true (List.prefix_refl _) (.inl rfl)
  | false =>
    have hiff : (false = true ∨ p.Misread) ↔ p.Misread := by simp
    rw [hiff]
    cases hrooted : p.rooted with
    | true =>
      rw [tokens, pathTokens, hannounced, hrooted] at h
      obtain rfl := (List.cons.inj h).1
      refine iff_of_false (by decide) fun hmisread => ?_
      exact Bool.false_ne_true (hmisread.2.1.symm.trans hrooted)
    | false =>
      obtain ⟨us, hfirst⟩ := exists_tokens_eq_first hannounced hrooted
      obtain rfl := (List.cons.inj (h.symm.trans hfirst)).1
      exact ⟨fun hbegins => ⟨hannounced, hrooted, hbegins⟩, fun hmisread => hmisread.2.2⟩

theorem tokens_ne_nil (p : ClassPath) : p.tokens ≠ [] := by
  simp [tokens, pathTokens, Segment.tokens]

/-- The reference does not depend on where blanks stand between the tokens of a path. -/
theorem classReferenceChars_of_tokens {p : ClassPath} (h : p.WellFormed) {cs : List Char}
    (hcs : tokensFrom [] cs = p.tokens) : classReferenceChars cs = p.read.reference := by
  refine classReferenceChars_of_text h.readable_read ?_ ?_
  · rw [← flatten_tokens, ← hcs, flatten_tokensFrom, List.nil_append]
  · obtain ⟨t, ts, htokens⟩ := List.exists_cons_of_ne_nil p.tokens_ne_nil
    obtain ⟨gap, rest, rfl, hgap, ht, hrest, -⟩ := exists_of_tokens_cons (hcs.trans htokens)
    rw [ht.prefix_trim_iff hgap hrest (by decide) parts_typenameWord, prefix_first_iff htokens]

/-- A path that is misread still gives its reference if and only if the misread identifier is not
among the last two, and the reference has two. -/
theorem reference_read_iff {p : ClassPath} (h : p.Misread) :
    p.read.reference = p.reference ↔ 2 ≤ p.outer.length ∧ p.nested = true := by
  rw [announced_of_misread h]
  obtain ⟨hannounced, hrooted, hbegins⟩ := h
  have hlength := hbegins.length_le
  rcases p with ⟨announced, rooted, outer, last⟩
  obtain rfl : announced = false := hannounced
  rcases outer with _ | ⟨s, _ | ⟨o, l⟩⟩
  · refine iff_of_false (fun heq => ?_) (by simp)
    have hlast : last.name.drop typenameWord.length = last.name := heq
    have := congrArg List.length hlast
    rw [List.length_drop] at this
    have hword : typenameWord.length = 8 := rfl
    have hfirst : typenameWord.length ≤ last.name.length := hlength
    omega
  · refine iff_of_false (fun heq => ?_) (by simp)
    have hword : typenameWord.length = 8 := rfl
    have hfirst : typenameWord.length ≤ s.name.length := hlength
    have hread : s.name.drop typenameWord.length ++ '.' :: last.name =
        if (ClassPath.mk false rooted [s] last).nested then s.name ++ '.' :: last.name
        else last.name := heq
    have := congrArg List.length hread
    split at this <;> simp only [List.length_append, List.length_cons, List.length_drop] at this <;>
      omega
  · have hlong : 2 ≤ (s :: o :: l).length := by simp
    obtain ⟨owner, howner⟩ : ∃ owner, (o :: l).getLast? = some owner :=
      ⟨_, List.getLast?_eq_some_getLast (List.cons_ne_nil o l)⟩
    have hlast : ∀ s : Segment, (s :: o :: l).getLast? = some owner := fun s => by
      rw [List.getLast?_cons_cons, howner]
    simp only [reference, withFirst, first, List.head?_cons, Option.getD_some, hlast, hlong,
      true_and]
    cases hnested : (ClassPath.mk false rooted (s :: o :: l) last).nested with
    | true => exact iff_of_true rfl rfl
    | false =>
      refine iff_of_false (fun heq => ?_) Bool.false_ne_true
      have hread : owner.name ++ '.' :: last.name = last.name := heq
      have := congrArg List.length hread
      simp only [List.length_append, List.length_cons] at this
      omega

/-- **The reference of a path is read, wherever blanks stand between its tokens,** if and only if
its first identifier is not taken for `typename`, or is not among the last two of a nested
reference. -/
theorem classReference_eq_iff {p : ClassPath} (h : p.WellFormed) {s : String}
    (hs : Spelling.tokens s = p.tokens) :
    classReference s = String.ofList p.reference ↔
      (p.Misread → 2 ≤ p.outer.length ∧ p.nested = true) := by
  have hread : classReferenceChars s.toList = p.read.reference := classReferenceChars_of_tokens h hs
  rw [classReference, hread, String.ofList_inj]
  by_cases hmisread : p.Misread
  · rw [reference_read_iff hmisread]
    exact ⟨fun hkept _ => hkept, fun hkept => hkept hmisread⟩
  · rw [read_of_not_misread hmisread]
    exact iff_of_true rfl fun h => absurd h hmisread

/-- `ns::List<F(T)>::node`: something nested in an instance of a template. -/
def nodePath : ClassPath where
  outer := [⟨"ns".toList, none⟩,
    ⟨"List".toList, some ["F".toList, "(".toList, "T".toList, ")".toList]⟩]
  last := ⟨"node".toList, none⟩

/-- The hypotheses of `classReference_eq_iff` are satisfiable: blanks do not matter, and neither
does the group in the arguments. -/
theorem classReference_nodePath :
    nodePath.WellFormed ∧ Spelling.tokens " ns ::List < F( T ) >:: node" = nodePath.tokens ∧
      classReference " ns ::List < F( T ) >:: node" = "List.node" := by
  have wellFormed : nodePath.WellFormed := by decide +kernel
  have htokens : Spelling.tokens " ns ::List < F( T ) >:: node" = nodePath.tokens := by
    decide +kernel
  have hplain : ¬ nodePath.Misread := by decide +kernel
  have hreference : nodePath.reference = "List.node".toList := by decide +kernel
  refine ⟨wellFormed, htokens, ?_⟩
  rw [(classReference_eq_iff wellFormed htokens).2 fun h => absurd h hplain, hreference,
    String.ofList_toList]

/-- `typenames`: a single identifier. -/
def typenamesPath : ClassPath := { last := ⟨"typenames".toList, none⟩ }

/-- An identifier that begins like `typename` loses its beginning. -/
theorem not_classReference_typenames :
    typenamesPath.WellFormed ∧ Spelling.tokens "typenames" = typenamesPath.tokens ∧
      classReference "typenames" = "s" ∧ String.ofList typenamesPath.reference = "typenames" := by
  decide +kernel

end ClassPath
end Spelling
end Bindery
