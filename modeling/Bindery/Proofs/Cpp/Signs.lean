/-
# Class names without the signs of pointers and references

The signs `*` and `&` are left out of a text before it is read. In a path of a class name they stand
in template arguments only, so this changes the arguments and nothing else:

| of the path | without signs |
| --- | --- |
| groups of the arguments | still leave none open (`Balanced.undecorated`) |
| text | that of the path with changed arguments (`ClassPath.Readable.text_undecorated`) |
| first token | still the first one (`prefix_trim_undecorated_iff`) |
| reference | the same (`ClassPath.classReferenceChars_undecorated`) |

In the arguments, though, words may grow together where a sign stood between them.
-/

import Bindery.Proofs.Cpp.ClassReference

namespace Bindery
namespace Spelling

open Text

/-- A text without signs of pointers and references. -/
def undecorated (cs : List Char) : List Char := cs.filter fun c => c != '&' && c != '*'

/-- There is no sign in the text. -/
def Unsigned (cs : List Char) : Prop := ∀ c ∈ cs, (c != '&' && c != '*') = true

-- not by a search through all characters, for which there is an instance as well
instance (cs : List Char) : Decidable (Unsigned cs) :=
  decidable_of_iff (cs.all (fun c => c != '&' && c != '*') = true) List.all_eq_true

theorem undecorated_append (a b : List Char) :
    undecorated (a ++ b) = undecorated a ++ undecorated b :=
  List.filter_append ..

theorem Unsigned.undecorated {cs : List Char} (h : Unsigned cs) : undecorated cs = cs :=
  List.filter_eq_self.2 h

theorem unsigned_of_blanks {gap : List Char} (h : ∀ c ∈ gap, isBlank c = true) : Unsigned gap := by
  intro c hc
  have hblank := h c hc
  rw [Bool.and_eq_true, bne_iff_ne, bne_iff_ne]
  constructor <;> rintro rfl <;> exact absurd hblank (by decide)

theorem unsigned_of_parts {w : List Char} (h : ∀ c ∈ w, isWordPart c = true) : Unsigned w := by
  intro c hc
  have hpart := h c hc
  rw [Bool.and_eq_true, bne_iff_ne, bne_iff_ne]
  constructor <;> rintro rfl <;> exact absurd hpart (by decide)

theorem filter_undecorated (cs : List Char) :
    (undecorated cs).filter (!isBlank ·) = undecorated (cs.filter (!isBlank ·)) :=
  List.filter_comm ..

theorem level_undecorated (cs : List Char) : level (undecorated cs) = level cs := by
  induction cs with
  | nil => rfl
  | cons c r ih =>
    rw [level_cons, ← ih, undecorated, undecorated, List.filter_cons]
    split
    · rw [level_cons]
    · rename_i hc
      have hweight : weight c = 0 := by
        rw [Bool.and_eq_true, bne_iff_ne, bne_iff_ne, not_and_or, not_not, not_not] at hc
        rcases hc with rfl | rfl <;> decide
      rw [hweight, Int.zero_add]

theorem Balanced.undecorated {cs : List Char} (h : Balanced cs) : Balanced (undecorated cs) := by
  refine ⟨fun q hq => ?_, by rw [level_undecorated, h.closed]⟩
  obtain ⟨p, hp, rfl⟩ := List.prefix_filter_iff.1 hq
  exact (h.nonneg p hp).trans_eq (level_undecorated p).symm

/-- A text begins as before, if its first token is kept. -/
theorem head?_undecorated {cs : List Char} (h : ∀ t ∈ (tokensFrom [] cs).head?, Unsigned t) :
    (undecorated cs).head? = cs.head? := by
  cases htokens : tokensFrom [] cs with
  | nil => rw [(unsigned_of_blanks (isBlank_of_tokensFrom_eq_nil htokens)).undecorated]
  | cons t ts =>
    rw [htokens] at h
    obtain ⟨gap, rest, rfl, hgap, ht, -, -⟩ := exists_of_tokens_cons htokens
    have hstart : gap ++ t ≠ [] := by simp [ht.ne_nil]
    have hkept : undecorated (gap ++ t) = gap ++ t := by
      rw [undecorated_append, (unsigned_of_blanks hgap).undecorated, (h t rfl).undecorated]
    rw [← List.append_assoc, undecorated_append, hkept, List.head?_append_of_ne_nil _ hstart,
      List.head?_append_of_ne_nil _ hstart]

/-- A text ends as before, if its last token is kept. -/
theorem getLast?_undecorated {cs : List Char}
    (h : ∀ t ∈ (tokensFrom [] cs).getLast?, Unsigned t) :
    (undecorated cs).getLast? = cs.getLast? := by
  rcases List.eq_nil_or_concat (tokensFrom [] cs) with htokens | ⟨ts, t, htokens⟩
  · rw [(unsigned_of_blanks (isBlank_of_tokensFrom_eq_nil htokens)).undecorated]
  · rw [List.concat_eq_append] at htokens
    rw [htokens, List.getLast?_concat] at h
    obtain ⟨before, gap, rfl, hgap, ht, -, -⟩ := exists_of_tokens_concat htokens
    have hend : t ++ gap ≠ [] := by simp [ht.ne_nil]
    rw [undecorated_append, undecorated_append, (unsigned_of_blanks hgap).undecorated,
      (h t rfl).undecorated, List.getLast?_append_of_ne_nil _ hend,
      List.getLast?_append_of_ne_nil _ hend]

/-- Whether a text begins with a word can be read off its first token, also when the signs are left
out, if the first two tokens are kept. -/
theorem prefix_trim_undecorated_iff {cs t w : List Char} {ts : List (List Char)}
    (h : tokensFrom [] cs = t :: ts) (hkept : ∀ u ∈ (t :: ts).take 2, Unsigned u)
    (hw : w ≠ []) (hparts : ∀ c ∈ w, isWordPart c = true) :
    w <+: trim (undecorated cs) ↔ w <+: t := by
  obtain ⟨gap, rest, rfl, hgap, ht, hrest, rfl⟩ := exists_of_tokens_cons h
  have hnext : Apart t (undecorated rest) := by
    intro x hx y hy
    refine hrest x hx y ?_
    rwa [head?_undecorated] at hy
    intro u hu
    refine hkept u ?_
    cases hts : tokensFrom [] rest with
    | nil =>
      rw [hts] at hu
      exact absurd hu nofun
    | cons v vs =>
      rw [hts] at hu
      obtain rfl := Option.some.inj hu
      simp
  have hsplit : undecorated (gap ++ (t ++ rest)) = gap ++ (t ++ undecorated rest) := by
    rw [undecorated_append, undecorated_append, (unsigned_of_blanks hgap).undecorated,
      (hkept t (by simp)).undecorated]
  rw [hsplit, ht.prefix_trim_iff hgap hnext hw hparts]

/-! ### A class name without signs in its arguments -/

namespace Segment

def undecorated (s : Segment) : Segment :=
  { s with args := s.args.map (·.map Spelling.undecorated) }

theorem Readable.undecorated {s : Segment} (h : s.Readable) : s.undecorated.Readable := by
  refine ⟨h.nonempty, h.parts, fun ts hts => ?_⟩
  obtain ⟨us, hus, rfl⟩ := Option.map_eq_some_iff.1 hts
  have hflat : (us.map Spelling.undecorated).flatten = Spelling.undecorated us.flatten :=
    List.filter_flatten.symm
  rw [hflat]
  exact (h.args us hus).undecorated

theorem Readable.text_undecorated {s : Segment} (h : s.Readable) :
    s.undecorated.text = Spelling.undecorated s.text := by
  have hname := (unsigned_of_parts h.parts).undecorated
  cases hargs : s.args with
  | none =>
    have hnone : s.undecorated.args = none := by rw [Segment.undecorated, hargs]; rfl
    rw [text_of_none hnone, text_of_none hargs, hname]
    rfl
  | some ts =>
    have hsome : s.undecorated.args = some (ts.map Spelling.undecorated) := by
      rw [Segment.undecorated, hargs]
      rfl
    have hflat : (ts.map Spelling.undecorated).flatten = Spelling.undecorated ts.flatten :=
      List.filter_flatten.symm
    have hgroup : Spelling.undecorated (group ts.flatten) =
        group (Spelling.undecorated ts.flatten) := by
      rw [group, group, ← List.singleton_append, undecorated_append, undecorated_append]
      rfl
    rw [text_of_some hsome, text_of_some hargs, undecorated_append, hname, hflat, hgroup]
    rfl

end Segment

namespace ClassPath

def undecorated (p : ClassPath) : ClassPath :=
  { p with outer := p.outer.map Segment.undecorated, last := p.last.undecorated }

theorem Readable.undecorated {p : ClassPath} (h : p.Readable) : p.undecorated.Readable := by
  refine ⟨fun s hs => ?_, h.last.undecorated⟩
  obtain ⟨s', hs', rfl⟩ := List.mem_map.1 hs
  exact (h.outer s' hs').undecorated

theorem Readable.text_undecorated {p : ClassPath} (h : p.Readable) :
    p.undecorated.text = Spelling.undecorated p.text := by
  have hscope : Spelling.undecorated scope = scope := by decide
  have houter : ∀ outer : List Segment, (∀ s ∈ outer, s.Readable) →
      (outer.map Segment.undecorated).flatMap (fun s => s.text ++ scope) =
        Spelling.undecorated (outer.flatMap fun s => s.text ++ scope) := by
    intro outer houter
    induction outer with
    | nil => rfl
    | cons s l ih =>
      obtain ⟨hs, hl⟩ := List.forall_mem_cons.1 houter
      rw [List.map_cons, List.flatMap_cons, List.flatMap_cons, ih hl, hs.text_undecorated,
        undecorated_append, undecorated_append, hscope]
  have hroot : Spelling.undecorated (if p.rooted then scope else []) =
      if p.rooted then scope else [] := by
    split <;> decide
  rw [text, text, undecorated_append, undecorated_append, hroot, ← houter p.outer h.outer,
    ← h.last.text_undecorated]
  rfl

theorem reference_undecorated (p : ClassPath) : p.undecorated.reference = p.reference := by
  have hargs : ∀ s : Segment, s.undecorated.args.isSome = s.args.isSome := fun s =>
    Option.isSome_map
  have hnone : p.undecorated.last.args.isNone = p.last.args.isNone := Option.isNone_map
  have hthrough : p.undecorated.throughInstance = p.throughInstance := by
    rw [throughInstance, throughInstance, hnone]
    simp [ClassPath.undecorated, List.any_map, Function.comp_def, hargs]
  have hnested : p.undecorated.nested = p.nested := by
    rw [nested, nested, hthrough]
    rfl
  rw [reference, reference, hnested, ClassPath.undecorated, List.getLast?_map]
  cases p.outer.getLast? <;> rfl

theorem first_undecorated (p : ClassPath) : p.undecorated.first = p.first := by
  rcases p with ⟨announced, rooted, outer, last⟩
  cases outer <;> rfl

theorem withFirst_undecorated (p : ClassPath) (name : List Char) :
    p.undecorated.withFirst name = (p.withFirst name).undecorated := by
  rcases p with ⟨announced, rooted, outer, last⟩
  cases outer <;> rfl

theorem misread_undecorated_iff (p : ClassPath) : p.undecorated.Misread ↔ p.Misread := by
  rw [Misread, Misread, first_undecorated]
  rfl

theorem read_undecorated (p : ClassPath) : p.undecorated.read = p.read.undecorated := by
  by_cases h : p.Misread
  · rw [announced_of_misread h, announced_of_misread ((misread_undecorated_iff p).2 h),
      first_undecorated, withFirst_undecorated]
    rfl
  · rw [read_of_not_misread h, read_of_not_misread (mt (misread_undecorated_iff p).1 h)]

/-- The first two tokens of a path are no signs. -/
theorem Readable.unsigned_take {p : ClassPath} (h : p.Readable) :
    ∀ t ∈ p.tokens.take 2, Unsigned t := by
  have hcolon : Unsigned [':'] := by decide
  have hbracket : Unsigned ['<'] := by decide
  have hword : Unsigned typenameWord := by decide
  have hpath : ∀ t ∈ p.pathTokens.take 2, Unsigned t := by
    rcases p with ⟨announced, rooted, outer, last⟩
    cases rooted with
    | true => simp [pathTokens, hcolon]
    | false =>
      cases outer with
      | nil =>
        have hlast := unsigned_of_parts h.last.parts
        rcases last with ⟨name, _ | ts⟩ <;>
          simp [pathTokens, Segment.tokens, Segment.brackets, hlast, hbracket]
      | cons s l =>
        have hs := unsigned_of_parts (h.outer s List.mem_cons_self).parts
        rcases s with ⟨name, _ | ts⟩ <;>
          simp [pathTokens, Segment.tokens, Segment.brackets, hs, hcolon, hbracket]
  intro t ht
  rw [tokens] at ht
  split at ht
  · rcases List.mem_cons.1 ht with rfl | ht
    · exact hword
    · exact hpath t (List.take_subset_take_left p.pathTokens (by decide) ht)
  · exact hpath t ht

/-- Without signs a path is read as it is. -/
theorem classReferenceChars_undecorated {p : ClassPath} (h : p.WellFormed) {cs : List Char}
    (hcs : tokensFrom [] cs = p.tokens) :
    classReferenceChars (Spelling.undecorated cs) = p.read.reference := by
  rw [← reference_undecorated, ← read_undecorated]
  have hread : p.undecorated.read.Readable := by
    rw [read_undecorated]
    exact h.readable_read.undecorated
  refine classReferenceChars_of_text hread ?_ ?_
  · have hword : Spelling.undecorated (if p.announced then typenameWord else []) =
        if p.announced then typenameWord else [] := by
      split <;> decide
    have hflat := flatten_tokensFrom cs []
    rw [hcs, flatten_tokens, List.nil_append] at hflat
    rw [filter_undecorated, ← hflat, undecorated_append, hword, h.readable.text_undecorated]
    rfl
  · obtain ⟨t, ts, htokens⟩ := List.exists_cons_of_ne_nil p.tokens_ne_nil
    rw [prefix_trim_undecorated_iff (hcs.trans htokens) (htokens ▸ h.readable.unsigned_take)
      (by decide) parts_typenameWord, prefix_first_iff htokens, misread_undecorated_iff]
    rfl

end ClassPath
end Spelling
end Bindery
