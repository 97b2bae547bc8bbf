/-
# The bare name of a class in a type

A type names a class by a path, perhaps with `const` in front of it or behind it, and with any `*`
and `&` at the end, of which every `*` may be constant itself. The bare name of the class is read
off what stands outside of groups. Three things are cut away, each of them once and in this order:

| cut away | as far as |
| --- | --- |
| the end | there are `*`, `&` and blanks |
| `const` in front | a plain space follows it |
| everything up to the last `::` | |

So the last identifier is what is left, with all that `const` behind the path or behind a `*` keeps
from being cut away. In front of the path `const` goes away with the namespaces, if there are any,
and else only if the blank behind it is a plain space. This is the exact condition
(`Surroundings.Harmless`, `ClassPath.bare_eq_iff`).
-/

import Bindery.Proofs.Cpp.ClassPath
import Mathlib.Data.List.TakeWhile

namespace Bindery
namespace Spelling

open Text

/-! ### Texts of tokens -/

instance (a b : List Char) : Decidable (Apart a b) :=
  decidable_of_iff (¬ (a.getLast?.any isWordPart = true ∧ b.head?.any isWordPart = true)) (by
    simp only [Apart, Option.any_eq_true]
    exact ⟨fun h x hx y hy hparts => h ⟨⟨x, hx, hparts.1⟩, ⟨y, hy, hparts.2⟩⟩,
      fun h ⟨⟨x, hx, hxpart⟩, ⟨y, hy, hypart⟩⟩ => h x hx y hy ⟨hxpart, hypart⟩⟩)

/-- Whether a text is tokens one behind the other, with any blanks before, between and behind them,
and without two words that meet. -/
def spells : List (List Char) → List Char → Bool
  | [], cs => cs.all isBlank
  | t :: ts, cs =>
    match afterStart? t (cs.dropWhile isBlank) with
    | some rest => decide (Apart t rest) && spells ts rest
    | none => false

/-- The tokens behind `typename`, with `::` as one of them. -/
def ClassPath.lexemes (p : ClassPath) : List (List Char) :=
  (if p.rooted then [scope] else []) ++ p.outer.flatMap (fun s => s.tokens ++ [scope]) ++
    p.last.tokens

/-- There is a `::` in front of the last identifier. -/
def ClassPath.Scoped (p : ClassPath) : Prop := p.rooted = true ∨ p.outer ≠ []

/-- A `*`, perhaps with `const` behind it, or a `&`. -/
inductive Indirection where
  | pointer (constant : Bool)
  | reference
  deriving DecidableEq

def Indirection.tokens : Indirection → List (List Char)
  | pointer constant => ['*'] :: if constant then [constWord] else []
  | reference => [['&']]

/-- What stands around the path of a class in a type. -/
structure Surroundings where
  /-- The type begins with `const`. -/
  front : Bool := false
  /-- There is a `const` directly behind the path. -/
  behind : Bool := false
  marks : List Indirection := []

namespace Surroundings

/-- The tokens behind the path. -/
def after (d : Surroundings) : List (List Char) :=
  (if d.behind then [constWord] else []) ++ d.marks.flatMap Indirection.tokens

def around (d : Surroundings) (path : List (List Char)) : List (List Char) :=
  (if d.front then [constWord] else []) ++ path ++ d.after

/-- Only the last identifier is left of a type. -/
structure Harmless (d : Surroundings) (p : ClassPath) (cs : List Char) : Prop where
  front : d.front = true → p.Scoped ∨ constWord ++ [' '] <+: trim cs
  behind : d.behind = false
  marks : Indirection.pointer true ∉ d.marks

end Surroundings

/-! ### What stands outside of groups in a text of tokens -/

/-- Behind blanks stands the first token, and behind that the others. -/
theorem exists_of_spells_cons {t cs : List Char} {ts : List (List Char)}
    (h : spells (t :: ts) cs = true) :
    ∃ gap rest, cs = gap ++ (t ++ rest) ∧ (∀ c ∈ gap, isBlank c = true) ∧ Apart t rest ∧
      spells ts rest = true := by
  rw [spells] at h
  split at h
  · rename_i rest hrest
    rw [Bool.and_eq_true, decide_eq_true_eq] at h
    rw [afterStart?] at hrest
    split at hrest
    · rename_i hprefix
      obtain ⟨more, hmore⟩ := List.isPrefixOf_iff_prefix.1 hprefix
      rw [← hmore, List.drop_left] at hrest
      obtain rfl := Option.some.inj hrest
      refine ⟨cs.takeWhile isBlank, more, ?_, fun c hc => ?_, h⟩
      · rw [hmore, List.takeWhile_append_dropWhile]
      · exact List.mem_takeWhile_imp hc
    · exact absurd hrest.symm (Option.some_ne_none rest)
  · exact absurd h Bool.false_ne_true

theorem isGroup_of_isBlank {c : Char} (h : isBlank c = true) : isGroup c = false := by
  rw [Bool.eq_false_iff]
  intro hgroup
  simp only [isGroup, Bool.or_eq_true, beq_iff_eq] at hgroup
  rcases hgroup with ((rfl | rfl) | rfl) | rfl <;> exact absurd h (by decide)

theorem weight_of_isGroup {c : Char} (h : isGroup c = false) : weight c = 0 := by
  simp only [isGroup, Bool.or_eq_false_iff, beq_eq_false_iff_ne] at h
  simp [weight, h]

theorem level_of_plain {cs : List Char} (h : ∀ c ∈ cs, isGroup c = false) : level cs = 0 := by
  induction cs with
  | nil => rfl
  | cons c r ih =>
    obtain ⟨hc, hr⟩ := List.forall_mem_cons.1 h
    rw [level_cons, weight_of_isGroup hc, ih hr, Int.add_zero]

/-- Blanks in a group are passed over. -/
theorem outside_append_of_blanks {gap : List Char} (hgap : ∀ c ∈ gap, isBlank c = true)
    {depth : Nat} (hdepth : 0 < depth) (r : List Char) :
    outside depth (gap ++ r) = outside depth r := by
  have hlevel : ∀ q, q <+: gap → level q = 0 := fun q hq =>
    level_of_plain fun c hc => isGroup_of_isBlank (hgap c (hq.subset hc))
  refine outside_append_of_enclosed (fun q hq => ?_) ?_ r
  · rw [hlevel q hq]
    omega
  · rw [hlevel gap (List.prefix_refl gap), Int.add_zero]

/-- Tokens that do not leave a group are passed over. Induction on the tokens, for any depth that
stays above zero. -/
theorem exists_outside_of_enclosed {ts us : List (List Char)} {cs : List Char} {depth depth' : Nat}
    (h : spells (ts ++ us) cs = true) (hpos : ∀ q, q <+: ts.flatten → 0 < (depth : Int) + level q)
    (hdepth : (depth' : Int) = depth + level ts.flatten) :
    ∃ rest, outside depth cs = outside depth' rest ∧ spells us rest = true := by
  induction ts generalizing cs depth with
  | nil =>
    obtain rfl : depth' = depth := Int.ofNat.inj (by simpa using hdepth)
    exact ⟨cs, rfl, h⟩
  | cons t ts ih =>
    rw [List.cons_append] at h
    obtain ⟨gap, rest, rfl, hgap, -, hrest⟩ := exists_of_spells_cons h
    have hstart : 0 < depth := by simpa using hpos [] List.nil_prefix
    have hthrough : ∀ q, q <+: t → 0 < (depth : Int) + level q := fun q hq =>
      hpos q (hq.trans (List.prefix_append t ts.flatten))
    obtain ⟨next, hnext⟩ : ∃ next : Nat, (next : Int) = depth + level t :=
      ⟨_, Int.toNat_of_nonneg (Int.le_of_lt (hthrough t (List.prefix_refl t)))⟩
    rw [outside_append_of_blanks hgap hstart, outside_append_of_enclosed hthrough hnext]
    refine ih hrest (fun q hq => ?_) ?_
    · rw [hnext, Int.add_assoc, ← level_append]
      exact hpos (t ++ q) ((List.prefix_append_right_inj t).2 hq)
    · rw [hdepth, hnext, List.flatten_cons, level_append, Int.add_assoc]

/-- Of the tokens of a segment the name stands outside of groups, with blanks around it. -/
theorem Segment.Readable.exists_outside {s : Segment} (hs : s.Readable) {us : List (List Char)}
    {cs : List Char} (h : spells (s.tokens ++ us) cs = true) :
    ∃ gap gap' more rest, cs = gap ++ (s.name ++ more) ∧ outside 0 more = gap' ++ outside 0 rest ∧
      (∀ c ∈ gap, isBlank c = true) ∧ (∀ c ∈ gap', isBlank c = true) ∧ spells us rest = true := by
  rw [Segment.tokens, List.cons_append] at h
  obtain ⟨gap, more, rfl, hgap, -, hmore⟩ := exists_of_spells_cons h
  cases hargs : s.args with
  | none =>
    rw [Segment.brackets, hargs] at hmore
    exact ⟨gap, [], more, more, rfl, rfl, hgap, List.forall_mem_nil _, hmore⟩
  | some ts =>
    rw [Segment.brackets, hargs, List.cons_append, List.append_assoc] at hmore
    obtain ⟨gap', inner, rfl, hgap', -, hinner⟩ := exists_of_spells_cons hmore
    have hbalanced := hs.args ts hargs
    obtain ⟨close, hclose, hafter⟩ : ∃ close, outside 1 inner = outside 1 close ∧
        spells (['>'] :: us) close = true :=
      exists_outside_of_enclosed hinner (fun q hq => by have := hbalanced.nonneg q hq; omega)
        (by rw [hbalanced.closed]; rfl)
    obtain ⟨blanks, rest, rfl, hblanks, -, htail⟩ := exists_of_spells_cons hafter
    refine ⟨gap, gap', _, rest, rfl, ?_, hgap, hgap', htail⟩
    rw [outside_append_of_plain fun c hc => isGroup_of_isBlank (hgap' c hc)]
    show gap' ++ outside 1 inner = _
    rw [hclose, outside_append_of_blanks hblanks Nat.one_pos]
    rfl

/-- What stands outside of groups around the name of a segment. -/
theorem Segment.Readable.outside_append {s : Segment} (hs : s.Readable) {gap : List Char}
    (hgap : ∀ c ∈ gap, isBlank c = true) (more : List Char) :
    outside 0 (gap ++ (s.name ++ more)) = gap ++ (s.name ++ outside 0 more) := by
  rw [outside_append_of_plain fun c hc => isGroup_of_isBlank (hgap c hc),
    outside_append_of_plain hs.isGroup_eq_false]

/-- A `::` stands outside of groups. -/
theorem exists_outside_scope {us : List (List Char)} {cs : List Char}
    (h : spells (scope :: us) cs = true) :
    ∃ gap rest, outside 0 cs = gap ++ scope ++ outside 0 rest ∧ spells us rest = true := by
  obtain ⟨gap, rest, rfl, hgap, -, hrest⟩ := exists_of_spells_cons h
  refine ⟨gap, rest, ?_, hrest⟩
  rw [outside_append_of_plain fun c hc => isGroup_of_isBlank (hgap c hc),
    outside_append_of_plain isGroup_scope, List.append_assoc]

namespace ClassPath

/-- Behind the segments in front of the last one stands a `::`, if there are any. -/
theorem exists_outside_outer {outer : List Segment} (houter : ∀ s ∈ outer, s.Readable)
    (hsome : outer ≠ []) {us : List (List Char)} {cs : List Char}
    (h : spells (outer.flatMap (fun s => s.tokens ++ [scope]) ++ us) cs = true) :
    ∃ before rest, outside 0 cs = before ++ scope ++ outside 0 rest ∧ spells us rest = true := by
  induction outer generalizing cs with
  | nil => exact absurd rfl hsome
  | cons s l ih =>
    obtain ⟨hs, hl⟩ := List.forall_mem_cons.1 houter
    rw [List.flatMap_cons, List.append_assoc, List.append_assoc] at h
    obtain ⟨gap, gap', more, afterName, rfl, hmore, hgap, -, h⟩ := hs.exists_outside h
    obtain ⟨blanks, afterScope, hscope, h⟩ := exists_outside_scope h
    rw [hs.outside_append hgap, hmore, hscope]
    by_cases hempty : l = []
    · subst hempty
      exact ⟨gap ++ s.name ++ gap' ++ blanks, afterScope, by simp only [List.append_assoc], h⟩
    · obtain ⟨before, rest, hrest, h⟩ := ih hl hempty h
      refine ⟨gap ++ s.name ++ gap' ++ blanks ++ scope ++ before, rest, ?_, h⟩
      rw [hrest]
      simp only [List.append_assoc]

theorem lexemes_of_not_scoped {p : ClassPath} (h : ¬ p.Scoped) : p.lexemes = p.last.tokens := by
  obtain ⟨hrooted, houter⟩ := not_or.1 h
  rw [lexemes, if_neg hrooted, not_not.1 houter]
  rfl

/-- **What stands outside of groups in a path with a `::`** has the last identifier behind it, with
blanks around the identifier. -/
theorem Readable.exists_outside {p : ClassPath} (hp : p.Readable) (hscoped : p.Scoped)
    {us : List (List Char)} {cs : List Char} (h : spells (p.lexemes ++ us) cs = true) :
    ∃ before gap gap' rest,
      outside 0 cs = before ++ (scope ++ (gap ++ (p.last.name ++ (gap' ++ outside 0 rest)))) ∧
      (∀ c ∈ gap, isBlank c = true) ∧ (∀ c ∈ gap', isBlank c = true) ∧ spells us rest = true := by
  obtain ⟨before, lastPart, hbefore, h⟩ : ∃ before rest,
      outside 0 cs = before ++ scope ++ outside 0 rest ∧
      spells (p.last.tokens ++ us) rest = true := by
    rw [lexemes, List.append_assoc, List.append_assoc] at h
    by_cases houter : p.outer = []
    · rw [houter, if_pos (hscoped.resolve_right (not_not.2 houter))] at h
      obtain ⟨gap, rest, hrest, h⟩ := exists_outside_scope h
      exact ⟨gap, rest, hrest, h⟩
    · cases hrooted : p.rooted with
      | false =>
        rw [hrooted] at h
        exact exists_outside_outer hp.outer houter h
      | true =>
        rw [hrooted] at h
        obtain ⟨gap, afterRoot, hroot, h⟩ := exists_outside_scope h
        obtain ⟨before, rest, hrest, h⟩ := exists_outside_outer hp.outer houter h
        exact ⟨gap ++ scope ++ before, rest, by rw [hroot, hrest]; simp only [List.append_assoc], h⟩
  obtain ⟨gap, gap', more, rest, rfl, hmore, hgap, hgap', h⟩ := hp.last.exists_outside h
  refine ⟨before, gap, gap', rest, ?_, hgap, hgap', h⟩
  rw [hbefore, hp.last.outside_append hgap, hmore, List.append_assoc]

end ClassPath

/-! ### Cutting away -/

/-- What is left of a text without groups, once its end is cut away. -/
def unqualified (cs : List Char) : List Char :=
  trim (lastSegment ((afterStart? (constWord ++ [' ']) cs).getD cs))

theorem isBlank_of_isWordPart {c : Char} (h : isWordPart c = true) : isBlank c = false :=
  Bool.eq_false_iff.2 (isWordPart_iff.1 h).1

theorem visible_constWord : ∀ c ∈ constWord, isBlank c = false :=
  fun c hc => isBlank_of_isWordPart (parts_constWord c hc)

theorem isDecoration_of_isBlank {c : Char} (h : isBlank c = true) : isDecoration c = true := by
  rw [isDecoration, h, Bool.or_true]

theorem isDecoration_of_isWordPart {c : Char} (h : isWordPart c = true) :
    isDecoration c = false := by
  obtain ⟨hblank, hpunct⟩ := isWordPart_iff.1 h
  rw [isDecoration, Bool.eq_false_iff.2 hblank, Bool.or_false, Bool.eq_false_iff]
  intro hsign
  simp only [Bool.or_eq_true, beq_iff_eq] at hsign
  rcases hsign with rfl | rfl <;> exact hpunct (by decide)

theorem bareChars_eq (cs : List Char) :
    bareChars cs = unqualified (dropEndWhile isDecoration ((outside 0 cs).dropWhile isBlank)) := by
  have hend : dropEndWhile isDecoration (trim (outside 0 cs)) =
      dropEndWhile isDecoration ((outside 0 cs).dropWhile isBlank) :=
    dropEndWhile_dropEndWhile (fun _ => isDecoration_of_isBlank) _
  rw [bareChars, hend]
  rfl

/-- In front of a word, a text begins with a plain space if and only if the blanks do. -/
theorem prefix_gap_iff {gap w r : List Char} (hw : w ≠ []) (hvisible : ∀ c ∈ w, isBlank c = false) :
    [' '] <+: gap ++ (w ++ r) ↔ [' '] <+: gap := by
  cases gap with
  | cons c gap => simp [List.cons_prefix_cons]
  | nil =>
    cases w with
    | nil => exact absurd rfl hw
    | cons c w =>
      refine iff_of_false (fun h => ?_) (by decide)
      obtain ⟨rfl, -⟩ := List.cons_prefix_cons.1 h
      exact absurd (hvisible ' ' List.mem_cons_self) (by decide)

theorem dropWhile_append_scope (u r : List Char) :
    (u ++ (scope ++ r)).dropWhile isBlank = u.dropWhile isBlank ++ (scope ++ r) := by
  rw [List.dropWhile_append]
  split
  · rename_i hempty
    rw [List.isEmpty_iff.1 hempty]
    rfl
  · rfl

/-- A word, and behind it something that no `::` stands in, no word goes on with, and that does not
end with `*`, `&` or a blank. -/
structure Remainder (name kept : List Char) : Prop where
  nonempty : name ≠ []
  parts : ∀ c ∈ name, isWordPart c = true
  notConst : name ≠ constWord
  plain : ':' ∉ kept
  head : ∀ c ∈ kept.head?, c ∉ constWord.tail
  last : ∀ c ∈ kept.getLast?, isDecoration c = false

namespace Remainder

variable {name kept : List Char}

theorem visible (h : Remainder name kept) : ∀ c ∈ name, isBlank c = false :=
  fun c hc => isBlank_of_isWordPart (h.parts c hc)

theorem trimEnd_kept (h : Remainder name kept) : trimEnd kept = kept := by
  have hkept : dropEndWhile isBlank (kept ++ []) = kept := by
    refine dropEndWhile_append (List.forall_mem_nil _) fun c hc => ?_
    rw [Bool.eq_false_iff]
    intro hblank
    exact Bool.false_ne_true ((h.last c hc).symm.trans (isDecoration_of_isBlank hblank))
  rwa [List.append_nil] at hkept

theorem trimEnd_append (h : Remainder name kept) (gap r : List Char) :
    trimEnd (gap ++ (name ++ r)) = gap ++ (name ++ trimEnd r) := by
  have hword : ∀ c ∈ (gap ++ name).getLast?, isBlank c = false := fun c hc => by
    rw [List.getLast?_append_of_ne_nil _ h.nonempty] at hc
    exact h.visible c (List.mem_of_mem_getLast? hc)
  rw [← List.append_assoc, trimEnd, dropEndWhile_append_of_last hword, List.append_assoc]
  rfl

theorem trim_gap (h : Remainder name kept) {gap : List Char} (hgap : ∀ c ∈ gap, isBlank c = true) :
    trim (gap ++ (name ++ kept)) = name ++ kept := by
  rw [trim_append hgap h.nonempty h.visible, h.trimEnd_kept]

theorem colon_notMem (h : Remainder name kept) {gap : List Char}
    (hgap : ∀ c ∈ gap, isBlank c = true) : ':' ∉ gap ++ (name ++ kept) := by
  simp only [List.mem_append, not_or]
  refine ⟨fun hmem => absurd (hgap _ hmem) (by decide), fun hmem => ?_, h.plain⟩
  exact absurd (h.parts _ hmem) (by decide)

/-- A word that is not `const` does not become so by what stands behind it. -/
theorem not_prefix (h : Remainder name kept) : ¬ constWord ++ [' '] <+: name ++ kept := by
  intro hprefix
  rcases List.prefix_or_prefix_of_prefix hprefix (List.prefix_append name kept) with hword | hname
  · exact absurd (h.visible ' ' (hword.subset (by decide))) (by decide)
  · obtain ⟨more, hmore⟩ := hname
    obtain ⟨rest, hrest⟩ := hprefix
    rw [← hmore, List.append_assoc] at hrest
    have hkept : kept = more ++ rest := (List.append_cancel_left hrest).symm
    -- the word is a beginning of `const` and neither empty nor all of it
    have hbeginnings : ∀ n < 7, (constWord ++ [' ']).take n = [] ∨
        (constWord ++ [' ']).take n = constWord ∨ ' ' ∈ (constWord ++ [' ']).take n ∨
        ((constWord ++ [' ']).drop n).head? ∈ constWord.tail.map some := by decide
    have hlength : name.length < 7 := by
      have := congrArg List.length hmore
      simp only [List.length_append] at this
      have hword : (constWord ++ [' ']).length = 6 := rfl
      rw [List.length_append] at hword
      omega
    have hsplit := hbeginnings name.length hlength
    rw [← hmore, List.take_left, List.drop_left] at hsplit
    rcases hsplit with hempty | hconst | hspace | hcut
    · exact h.nonempty hempty
    · exact h.notConst hconst
    · exact absurd (h.visible ' ' hspace) (by decide)
    · obtain ⟨c, hmem, hc⟩ := List.mem_map.1 hcut
      refine h.head c ?_ hmem
      rw [hkept, List.head?_append, ← hc]
      rfl

/-- What is left of a text with a `::` before the word. -/
theorem unqualified_scope (h : Remainder name kept) {gap : List Char}
    (hgap : ∀ c ∈ gap, isBlank c = true) (before : List Char) :
    unqualified (before ++ (scope ++ (gap ++ (name ++ kept)))) = name ++ kept := by
  obtain ⟨before', hbefore⟩ : ∃ before', (afterStart? (constWord ++ [' '])
      (before ++ (scope ++ (gap ++ (name ++ kept))))).getD
        (before ++ (scope ++ (gap ++ (name ++ kept)))) =
      before' ++ (scope ++ (gap ++ (name ++ kept))) := by
    rw [afterStart?]
    split
    · rename_i hprefix
      -- there is no colon in `const`, so that it ends before the `::`
      rcases List.prefix_or_prefix_of_prefix (List.isPrefixOf_iff_prefix.1 hprefix)
        (List.prefix_append before _) with ⟨r, hr⟩ | ⟨r, hr⟩
      · exact ⟨r, by rw [← hr, List.append_assoc, List.drop_left, Option.getD_some]⟩
      · cases r with
        | nil => exact ⟨[], by rw [← hr, List.append_nil, List.drop_left, Option.getD_some]; rfl⟩
        | cons c r =>
          rw [← hr, List.isPrefixOf_iff_prefix, List.prefix_append_right_inj] at hprefix
          obtain ⟨rfl, -⟩ := List.cons_prefix_cons.1 hprefix
          exact absurd (hr ▸ List.mem_append_right before List.mem_cons_self) (by decide)
    · exact ⟨before, rfl⟩
  rw [unqualified, hbefore, lastSegment_append_scope (h.colon_notMem hgap), h.trim_gap hgap]

/-- What is left of the word alone. -/
theorem unqualified_self (h : Remainder name kept) : unqualified (name ++ kept) = name ++ kept := by
  have hplain : (constWord ++ [' ']).isPrefixOf (name ++ kept) = false :=
    Bool.eq_false_iff.2 (mt List.isPrefixOf_iff_prefix.1 h.not_prefix)
  have hnil : ∀ c ∈ [], isBlank c = true := List.forall_mem_nil _
  have htrim : trim (name ++ kept) = name ++ kept := h.trim_gap hnil
  have hcolon : ':' ∉ name ++ kept := h.colon_notMem hnil
  rw [unqualified, afterStart?, hplain]
  show trim (lastSegment (name ++ kept)) = name ++ kept
  rw [lastSegment, afterScope_of_not_mem hcolon, htrim]

/-- `const` is cut away in front of a plain space, and only there. -/
theorem unqualified_const (h : Remainder name kept) {gap : List Char}
    (hgap : ∀ c ∈ gap, isBlank c = true) :
    unqualified (constWord ++ (gap ++ (name ++ kept))) =
      if [' '] <+: gap then name ++ kept else constWord ++ (gap ++ (name ++ kept)) := by
  by_cases hspace : [' '] <+: gap
  · rw [if_pos hspace]
    obtain ⟨gap, rfl⟩ := hspace
    have hblanks : ∀ c ∈ gap, isBlank c = true := fun c hc => hgap c (List.mem_append_right _ hc)
    have hregroup : constWord ++ ([' '] ++ gap ++ (name ++ kept)) =
        (constWord ++ [' ']) ++ (gap ++ (name ++ kept)) := by simp only [List.append_assoc]
    rw [unqualified, hregroup, afterStart?_append, Option.getD_some, lastSegment,
      afterScope_of_not_mem (h.colon_notMem hblanks), h.trim_gap hblanks]
  · rw [if_neg hspace]
    have hplain :
        (constWord ++ [' ']).isPrefixOf (constWord ++ (gap ++ (name ++ kept))) = false := by
      rw [Bool.eq_false_iff, ne_eq, List.isPrefixOf_iff_prefix, List.prefix_append_right_inj,
        prefix_gap_iff h.nonempty h.visible]
      exact hspace
    have hcolon : ':' ∉ constWord ++ (gap ++ (name ++ kept)) := by
      rw [List.mem_append, not_or]
      exact ⟨by decide, h.colon_notMem hgap⟩
    have hnil : ∀ c ∈ [], isBlank c = true := List.forall_mem_nil _
    have hword : constWord ≠ [] := by decide
    have htrim := trim_append hnil hword visible_constWord (gap ++ (name ++ kept))
    rw [List.nil_append, h.trimEnd_append, h.trimEnd_kept] at htrim
    rw [unqualified, afterStart?, hplain]
    show trim (lastSegment (constWord ++ (gap ++ (name ++ kept)))) = _
    rw [lastSegment, afterScope_of_not_mem hcolon, htrim]

end Remainder

/-! ### The end of a type -/

/-- What stands in a text of tokens stands in a token or is a blank. -/
theorem mem_of_spells {ts : List (List Char)} {cs : List Char} (h : spells ts cs = true) {c : Char}
    (hc : c ∈ cs) (hvisible : isBlank c = false) : ∃ t ∈ ts, c ∈ t := by
  induction ts generalizing cs with
  | nil => exact absurd (hvisible.symm.trans (List.all_eq_true.1 h c hc)) nofun
  | cons t ts ih =>
    obtain ⟨gap, rest, rfl, hgap, -, hrest⟩ := exists_of_spells_cons h
    rw [List.mem_append, List.mem_append] at hc
    rcases hc with hc | hc | hc
    · exact absurd (hvisible.symm.trans (hgap c hc)) nofun
    · exact ⟨t, List.mem_cons_self, hc⟩
    · obtain ⟨u, hu, hmem⟩ := ih hrest hc
      exact ⟨u, List.mem_cons_of_mem t hu, hmem⟩

theorem subset_of_spells {ts : List (List Char)} {cs : List Char} (h : spells ts cs = true)
    {t : List Char} (ht : t ∈ ts) : t ⊆ cs := by
  induction ts generalizing cs with
  | nil => exact absurd ht List.not_mem_nil
  | cons u us ih =>
    obtain ⟨gap, rest, rfl, -, -, hrest⟩ := exists_of_spells_cons h
    intro c hc
    rw [List.mem_append, List.mem_append]
    rcases List.mem_cons.1 ht with rfl | ht
    · exact .inr (.inl hc)
    · exact .inr (.inr (ih hrest ht hc))

/-- A text of tokens begins with a blank or like its first token. -/
theorem head?_of_spells {ts : List (List Char)} {cs : List Char} (h : spells ts cs = true)
    (hts : [] ∉ ts) {c : Char} (hc : c ∈ cs.head?) :
    isBlank c = true ∨ ∃ t ∈ ts, c ∈ t.head? := by
  cases ts with
  | nil => exact .inl (List.all_eq_true.1 h c (List.mem_of_mem_head? hc))
  | cons t ts =>
    obtain ⟨gap, rest, rfl, hgap, -, -⟩ := exists_of_spells_cons h
    cases gap with
    | cons d gap =>
      obtain rfl := Option.some.inj hc
      exact .inl (hgap d List.mem_cons_self)
    | nil =>
      refine .inr ⟨t, List.mem_cons_self, ?_⟩
      rwa [List.nil_append, List.head?_append_of_ne_nil _ fun hempty =>
        hts (hempty ▸ List.mem_cons_self)] at hc

namespace Surroundings

variable {d : Surroundings}

theorem eq_of_mem_after {t : List Char} (h : t ∈ d.after) :
    t = constWord ∨ t = ['*'] ∨ t = ['&'] := by
  rw [after, List.mem_append, List.mem_flatMap] at h
  rcases h with h | ⟨m, -, hm⟩
  · split at h
    · exact .inl (List.mem_singleton.1 h)
    · exact absurd h List.not_mem_nil
  · cases m with
    | reference => exact .inr (.inr (List.mem_singleton.1 hm))
    | pointer constant =>
      rcases List.mem_cons.1 hm with rfl | hm
      · exact .inr (.inl rfl)
      · split at hm
        · exact .inl (List.mem_singleton.1 hm)
        · exact absurd hm List.not_mem_nil

theorem constWord_mem_after : constWord ∈ d.after ↔
    d.behind = true ∨ Indirection.pointer true ∈ d.marks := by
  rw [after, List.mem_append, List.mem_flatMap]
  refine or_congr (by cases d.behind <;> decide) ⟨?_, fun h => ⟨_, h, by decide⟩⟩
  rintro ⟨m, hm, hmem⟩
  rcases m with (_ | _) | _
  · exact absurd hmem (by decide)
  · exact hm
  · exact absurd hmem (by decide)

theorem eq_of_mem_text {rest : List Char} (h : spells d.after rest = true) {c : Char}
    (hc : c ∈ rest) (hvisible : isBlank c = false) : c ∈ constWord ∨ c = '*' ∨ c = '&' := by
  obtain ⟨t, ht, hmem⟩ := mem_of_spells h hc hvisible
  rcases eq_of_mem_after ht with rfl | rfl | rfl
  · exact .inl hmem
  · exact .inr (.inl (List.mem_singleton.1 hmem))
  · exact .inr (.inr (List.mem_singleton.1 hmem))

/-- Nothing behind a path is a group. -/
theorem outside_text {rest : List Char} (h : spells d.after rest = true) :
    outside 0 rest = rest := by
  refine outside_of_plain fun c hc => ?_
  cases hblank : isBlank c with
  | true => exact isGroup_of_isBlank hblank
  | false =>
    rcases eq_of_mem_text h hc hblank with hmem | rfl | rfl
    · exact isGroup_of_isWordPart (parts_constWord c hmem)
    · rfl
    · rfl

/-- All that stands behind a path can be cut away if and only if there is no `const` in it. -/
theorem forall_isDecoration_iff {rest : List Char} (h : spells d.after rest = true) :
    (∀ c ∈ rest, isDecoration c = true) ↔
      d.behind = false ∧ Indirection.pointer true ∉ d.marks := by
  have hnone : (d.behind = false ∧ Indirection.pointer true ∉ d.marks) ↔ constWord ∉ d.after := by
    rw [constWord_mem_after, not_or, Bool.not_eq_true]
  rw [hnone]
  refine ⟨fun hall hmem => ?_, fun hnot c hc => ?_⟩
  · exact absurd (hall 'c' (subset_of_spells h hmem (by decide))) (by decide)
  · cases hblank : isBlank c with
    | true => exact isDecoration_of_isBlank hblank
    | false =>
      obtain ⟨t, ht, hmem⟩ := mem_of_spells h hc hblank
      rcases eq_of_mem_after ht with rfl | rfl | rfl
      · exact absurd ht hnot
      · rw [List.mem_singleton.1 hmem]
        rfl
      · rw [List.mem_singleton.1 hmem]
        rfl

/-- **What is kept of all that stands behind a name.** -/
theorem remainder {name gap rest : List Char} (hname : IsIdentifier name)
    (hgap : ∀ c ∈ gap, isBlank c = true) (h : spells d.after rest = true) :
    Remainder name (dropEndWhile isDecoration (gap ++ rest)) where
  nonempty := hname.nonempty
  parts := hname.parts
  notConst := hname.notConst
  plain := fun hmem => by
    have hkept := dropEndWhile_prefix isDecoration (gap ++ rest)
    rcases List.mem_append.1 (hkept.subset hmem) with hmem | hmem
    · exact absurd (hgap _ hmem) (by decide)
    · rcases eq_of_mem_text h hmem (by decide) with hmem | heq | heq
      · exact absurd hmem (by decide)
      · exact absurd heq (by decide)
      · exact absurd heq (by decide)
  head := fun c hc hmem => by
    have hhead : c ∈ (gap ++ rest).head? := by
      obtain ⟨r, hr⟩ := dropEndWhile_prefix isDecoration (gap ++ rest)
      rw [← hr, List.head?_append, Option.mem_def.1 hc]
      rfl
    have hvisible : isBlank c ≠ true :=
      Bool.eq_false_iff.1 (visible_constWord c (List.mem_of_mem_tail hmem))
    cases gap with
    | cons b gap =>
      obtain rfl := Option.some.inj hhead
      exact hvisible (hgap b List.mem_cons_self)
    | nil =>
      rcases head?_of_spells h (fun hempty => by simpa [constWord] using eq_of_mem_after hempty)
        hhead with hblank | ⟨t, ht, hc⟩
      · exact hvisible hblank
      · rcases eq_of_mem_after ht with rfl | rfl | rfl <;> obtain rfl := Option.some.inj hc <;>
          exact absurd hmem (by decide)
  last := fun c hc => by
    rw [dropEndWhile, List.getLast?_reverse] at hc
    have hnot := List.head?_dropWhile_not isDecoration (gap ++ rest).reverse
    rw [Option.mem_def.1 hc] at hnot
    simpa using hnot

theorem exists_remainder {name gap rest : List Char} (hname : IsIdentifier name)
    (hgap : ∀ c ∈ gap, isBlank c = true) (h : spells d.after rest = true) :
    ∃ kept, Remainder name kept ∧
      (kept = [] ↔ d.behind = false ∧ Indirection.pointer true ∉ d.marks) ∧
      ∀ u, dropEndWhile isDecoration (u ++ (name ++ (gap ++ rest))) = u ++ (name ++ kept) := by
  refine ⟨_, remainder hname hgap h, ?_, fun u => ?_⟩
  · rw [← forall_isDecoration_iff h, dropEndWhile, List.reverse_eq_nil_iff,
      List.dropWhile_eq_nil_iff]
    simp only [List.mem_reverse]
    exact ⟨fun hall c hc => hall c (List.mem_append_right gap hc), fun hall c hc =>
      (List.mem_append.1 hc).elim (fun hc => isDecoration_of_isBlank (hgap c hc)) (hall c)⟩
  · have hword : ∀ c ∈ (u ++ name).getLast?, isDecoration c = false := fun c hc => by
      rw [List.getLast?_append_of_ne_nil _ hname.nonempty] at hc
      exact isDecoration_of_isWordPart (hname.parts c (List.mem_of_mem_getLast? hc))
    rw [← List.append_assoc, dropEndWhile_append_of_last hword, List.append_assoc]

end Surroundings

/-! ### The bare name -/

namespace ClassPath

/-- Behind a last identifier that stands behind a `::`, all that `const` keeps is left. -/
theorem WellFormed.bareChars_of_scoped {p : ClassPath} (hp : p.WellFormed) (hscoped : p.Scoped)
    {d : Surroundings} {cs : List Char} (h : spells (d.around p.lexemes) cs = true) :
    ∃ kept, bareChars cs = p.last.name ++ kept ∧
      (kept = [] ↔ d.behind = false ∧ Indirection.pointer true ∉ d.marks) := by
  obtain ⟨before, gap, gap', rest, houtside, hgap, hgap', hrest⟩ : ∃ before gap gap' rest,
      outside 0 cs = before ++ (scope ++ (gap ++ (p.last.name ++ (gap' ++ outside 0 rest)))) ∧
      (∀ c ∈ gap, isBlank c = true) ∧ (∀ c ∈ gap', isBlank c = true) ∧
      spells d.after rest = true := by
    rw [Surroundings.around, List.append_assoc] at h
    cases hfront : d.front with
    | false =>
      rw [hfront] at h
      exact hp.readable.exists_outside hscoped h
    | true =>
      rw [hfront] at h
      obtain ⟨blanks, more, rfl, hblanks, -, hmore⟩ := exists_of_spells_cons h
      obtain ⟨before, gap, gap', rest, houtside, hrest⟩ :=
        hp.readable.exists_outside hscoped hmore
      refine ⟨blanks ++ (constWord ++ before), gap, gap', rest, ?_, hrest⟩
      rw [outside_append_of_plain fun c hc => isGroup_of_isBlank (hblanks c hc),
        outside_append_of_plain fun c hc => isGroup_of_isWordPart (parts_constWord c hc), houtside]
      simp only [List.append_assoc]
  obtain ⟨kept, hkept, hempty, hend⟩ := Surroundings.exists_remainder hp.last.name hgap' hrest
  refine ⟨kept, ?_, hempty⟩
  rw [Surroundings.outside_text hrest] at houtside
  rw [bareChars_eq, houtside, dropWhile_append_scope, ← List.append_assoc scope,
    ← List.append_assoc (before.dropWhile isBlank), hend]
  simp only [List.append_assoc]
  exact hkept.unqualified_scope hgap _

/-- **A single identifier.** Behind it all that `const` keeps is left, and in front of it `const`,
unless a plain space stands behind that. -/
theorem WellFormed.bareChars_of_not_scoped {p : ClassPath} (hp : p.WellFormed)
    (hscoped : ¬ p.Scoped) {d : Surroundings} {cs : List Char}
    (h : spells (d.around p.lexemes) cs = true) :
    ∃ gap kept, bareChars cs =
        (if d.front = true ∧ ¬ constWord ++ [' '] <+: trim cs then constWord ++ gap else []) ++
          (p.last.name ++ kept) ∧
      (kept = [] ↔ d.behind = false ∧ Indirection.pointer true ∉ d.marks) := by
  rw [Surroundings.around, List.append_assoc, lexemes_of_not_scoped hscoped] at h
  have hname := hp.readable.last
  cases hfront : d.front with
  | false =>
    rw [hfront] at h
    obtain ⟨gap, gap', more, rest, rfl, hmore, hgap, hgap', hrest⟩ := hname.exists_outside h
    obtain ⟨kept, hkept, hempty, hend⟩ := Surroundings.exists_remainder hp.last.name hgap' hrest
    refine ⟨[], kept, ?_, hempty⟩
    have hbegin := dropWhile_gap hgap hkept.nonempty hkept.visible (gap' ++ rest)
    rw [bareChars_eq, hname.outside_append hgap, hmore, Surroundings.outside_text hrest, hbegin,
      ← List.nil_append (p.last.name ++ (gap' ++ rest)), hend, List.nil_append,
      if_neg fun hand => Bool.false_ne_true hand.1]
    exact hkept.unqualified_self
  | true =>
    rw [hfront] at h
    obtain ⟨blanks, inner, rfl, hblanks, -, hinner⟩ := exists_of_spells_cons h
    obtain ⟨gap, gap', more, rest, rfl, hmore, hgap, hgap', hrest⟩ := hname.exists_outside hinner
    obtain ⟨kept, hkept, hempty, hend⟩ := Surroundings.exists_remainder hp.last.name hgap' hrest
    refine ⟨gap, kept, ?_, hempty⟩
    have hbegin : (blanks ++ (constWord ++ (gap ++ (p.last.name ++ (gap' ++ rest))))).dropWhile
        isBlank = constWord ++ gap ++ (p.last.name ++ (gap' ++ rest)) := by
      rw [dropWhile_gap hblanks (by decide) visible_constWord, List.append_assoc]
    have hspace : constWord ++ [' '] <+:
        trim (blanks ++ (constWord ++ (gap ++ (p.last.name ++ more)))) ↔ [' '] <+: gap := by
      rw [trim_append hblanks (by decide) visible_constWord, hkept.trimEnd_append,
        List.prefix_append_right_inj, prefix_gap_iff hkept.nonempty hkept.visible]
    rw [bareChars_eq, outside_append_of_plain fun c hc => isGroup_of_isBlank (hblanks c hc),
      outside_append_of_plain fun c hc => isGroup_of_isWordPart (parts_constWord c hc),
      hname.outside_append hgap, hmore, Surroundings.outside_text hrest, hbegin, hend,
      List.append_assoc, hkept.unqualified_const hgap]
    by_cases hplain : [' '] <+: gap
    · rw [if_pos hplain, if_neg fun hand => hand.2 (hspace.2 hplain), List.nil_append]
    · rw [if_neg hplain, if_pos ⟨rfl, mt hspace.1 hplain⟩, List.append_assoc]

/-- **Exactly when only the last identifier is left** of a type. -/
theorem WellFormed.bareChars_eq_iff {p : ClassPath} (hp : p.WellFormed) {d : Surroundings}
    {cs : List Char} (h : spells (d.around p.lexemes) cs = true) :
    bareChars cs = p.last.name ↔ d.Harmless p cs := by
  by_cases hscoped : p.Scoped
  · obtain ⟨kept, hbare, hempty⟩ := hp.bareChars_of_scoped hscoped h
    rw [hbare, List.append_right_eq_self, hempty]
    exact ⟨fun hplain => ⟨fun _ => .inl hscoped, hplain.1, hplain.2⟩,
      fun hharmless => ⟨hharmless.behind, hharmless.marks⟩⟩
  · obtain ⟨gap, kept, hbare, hempty⟩ := hp.bareChars_of_not_scoped hscoped h
    rw [hbare]
    split
    · rename_i hleft
      refine iff_of_false (fun heq => ?_) fun hharmless => ?_
      · have := congrArg List.length heq
        have hword : constWord.length = 5 := rfl
        simp only [List.length_append] at this
        omega
      · exact (hharmless.front hleft.1).elim hscoped hleft.2
    · rename_i hleft
      rw [List.nil_append, List.append_right_eq_self, hempty]
      refine ⟨fun hplain => ⟨fun hfront => ?_, hplain.1, hplain.2⟩,
        fun hharmless => ⟨hharmless.behind, hharmless.marks⟩⟩
      exact .inr (not_not.1 fun hspace => hleft ⟨hfront, hspace⟩)

/-- **Exactly when the bare name of a type is the last identifier of its path:** `const` stands
neither behind the path nor behind a `*`, and in front of a single identifier a plain space follows
it. -/
theorem bare_eq_iff {p : ClassPath} (h : p.WellFormed) {d : Surroundings} {s : String}
    (hs : spells (d.around p.lexemes) s.toList = true) :
    bare s = String.ofList p.last.name ↔ d.Harmless p s.toList := by
  rw [bare, String.ofList_inj]
  exact h.bareChars_eq_iff hs

/-- `geo::Grid<F(T)>::Cell<2>`: a template in an instance of a template. -/
def cellPath : ClassPath where
  outer := [⟨"geo".toList, none⟩,
    ⟨"Grid".toList, some ["F".toList, "(".toList, "T".toList, ")".toList]⟩]
  last := ⟨"Cell".toList, some ["2".toList]⟩

/-- The hypotheses of `bare_eq_iff` are satisfiable: `const` in front of a path, arguments, pointers
and references are cut away, with blanks of any kind between the tokens. -/
theorem bare_cellPath :
    cellPath.WellFormed ∧
      spells (({ front := true, marks := [.pointer false, .reference] } : Surroundings).around
        cellPath.lexemes) "const\tgeo ::Grid< F( T ) > :: Cell<2> * &".toList = true ∧
      bare "const\tgeo ::Grid< F( T ) > :: Cell<2> * &" = "Cell" := by
  have wellFormed : cellPath.WellFormed := by decide +kernel
  have hspells : spells
      (({ front := true, marks := [.pointer false, .reference] } : Surroundings).around
        cellPath.lexemes) "const\tgeo ::Grid< F( T ) > :: Cell<2> * &".toList = true := by
    decide +kernel
  refine ⟨wellFormed, hspells, ?_⟩
  rw [(bare_eq_iff wellFormed hspells).2 ⟨fun _ => .inl (.inr (by decide)), rfl, by decide⟩]
  decide +kernel

/-- `Foo`: a single identifier. -/
def fooPath : ClassPath := { last := ⟨"Foo".toList, none⟩ }

/-- `const` stays behind a path, behind a `*`, and in front of a tab. -/
theorem bare_keeps_const :
    fooPath.WellFormed ∧
      spells (({ behind := true } : Surroundings).around fooPath.lexemes)
        "Foo const".toList = true ∧
      bare "Foo const" = "Foo const" ∧
      spells (({ marks := [.pointer true] } : Surroundings).around fooPath.lexemes)
        "Foo * const".toList = true ∧
      bare "Foo * const" = "Foo * const" ∧
      spells (({ front := true } : Surroundings).around fooPath.lexemes)
        "const\tFoo".toList = true ∧
      bare "const\tFoo" = "const\tFoo" := by
  decide +kernel

end ClassPath

end Spelling
end Bindery
