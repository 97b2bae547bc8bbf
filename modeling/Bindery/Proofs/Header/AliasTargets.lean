/-
# The class that an alias stands for

The target of an alias is a class name with decorations: `const` in front of it or behind it, and
signs of pointers and references behind that. The decorations are to leave no trace in the
reference. What becomes of them:

| decoration | becomes |
| --- | --- |
| signs, also those in template arguments | left out |
| `const` behind the name | cut off, wherever blanks stand (`exists_stripped_const`) |
| `const` in front of the name | glued to what follows it (`ClassPath.glued`) |

Two things go wrong. An identifier at the end that itself ends like `const` is cut too, unless the
decoration `const` stands behind it (`exists_stripped_name`). And what is glued to `const` is
dropped only if the reference does not reach back to it. Apart from this the reference is that of
the plain name (`Decoration.Harmless`, `ClassInfo.addAlias_decorated`).
-/

import Bindery.Header.Members
import Bindery.Proofs.Cpp.ConstantPath

namespace Bindery
namespace Spelling

open Text

/-! ### Decorations -/

/-- The sign of a pointer or a reference. -/
inductive Sign where
  | pointer
  | reference

def Sign.char : Sign → Char
  | .pointer => '*'
  | .reference => '&'

/-- What may stand around a class name: `const` in front of it and behind it, and signs. -/
structure Decoration where
  front : Bool := false
  behind : Bool := false
  signs : List Sign := []

namespace Decoration

/-- `const` in front. -/
def before (d : Decoration) : List (List Char) := if d.front then [constWord] else []

/-- The tokens with the decoration around them. -/
def around (d : Decoration) (ts : List (List Char)) : List (List Char) :=
  d.before ++ ts ++ (if d.behind then [constWord] else []) ++ d.signs.map fun s => [s.char]

/-- The path that is left of a decorated one: at the end `const` is cut off, and off the last
identifier if it stands there. -/
def cut (d : Decoration) (p : ClassPath) : ClassPath :=
  if d.behind = true ∨ p.last.args.isSome = true then p
  else p.withLast (withoutEnds constWord p.last.name)

/-- The reference of the decorated path. -/
def target (d : Decoration) (p : ClassPath) : List Char :=
  if d.front then (d.cut p).glued.reference else (d.cut p).read.reference

/-- The decoration leaves no trace in the reference of a path: what is glued to `const` in front is
dropped, and the last identifier is not taken for `const`. -/
structure Harmless (d : Decoration) (p : ClassPath) : Prop where
  front : d.front = true → p.ConstDropped
  behind : d.behind = true ∨ p.last.args.isSome = true ∨ ¬ constWord <:+ p.last.name

end Decoration

/-- A text without signs and without `const` at its end. -/
def stripped (cs : List Char) : List Char := withoutEnds constWord (trimEnd (undecorated cs))

/-- The signs and blanks behind a token are left out. -/
theorem exists_trimEnd_undecorated {cs t : List Char} {ts : List (List Char)} {signs : List Sign}
    (ht : Unsigned t) (h : tokensFrom [] cs = ts ++ [t] ++ signs.map fun s => [s.char]) :
    ∃ x, tokensFrom [] x = ts ∧ IsToken t ∧ Apart x t ∧
      trimEnd (undecorated cs) = undecorated x ++ t := by
  obtain ⟨a, b, rfl, -, ha, hb⟩ := exists_of_tokens_append h
  obtain ⟨x, gap, rfl, hgap, htoken, hapart, hx⟩ := exists_of_tokens_concat ha
  refine ⟨x, hx, htoken, hapart, ?_⟩
  have hsigns : ∀ c ∈ undecorated b, isBlank c = true := by
    intro c hc
    by_contra hblank
    obtain ⟨hmem, hsign⟩ := List.mem_filter.1 hc
    have hflat : c ∈ (signs.map fun s => [s.char]).flatten := by
      rw [← hb, flatten_tokensFrom, List.nil_append]
      exact List.mem_filter.2 ⟨hmem, by simp [hblank]⟩
    obtain ⟨l, hl, hcl⟩ := List.mem_flatten.1 hflat
    obtain ⟨s, -, rfl⟩ := List.mem_map.1 hl
    obtain rfl := List.mem_singleton.1 hcl
    cases s <;> exact absurd hsign (by decide)
  have hsplit : undecorated (x ++ (t ++ gap) ++ b) =
      undecorated x ++ t ++ (gap ++ undecorated b) := by
    rw [undecorated_append, undecorated_append, undecorated_append, ht.undecorated,
      (unsigned_of_blanks hgap).undecorated]
    simp only [List.append_assoc]
  rw [hsplit, trimEnd]
  refine dropEndWhile_append (List.forall_mem_append.2 ⟨hgap, hsigns⟩) fun c hc => ?_
  rw [List.getLast?_append_of_ne_nil _ htoken.ne_nil] at hc
  exact htoken.visible c (List.mem_of_mem_getLast? hc)

/-- **`const` behind a name is cut off.** In front of it stands a blank or a bracket, so that
nothing else is. -/
theorem exists_stripped_const {cs : List Char} {ts : List (List Char)} {signs : List Sign}
    (hlast : ∀ u ∈ ts.getLast?, Unsigned u)
    (h : tokensFrom [] cs = ts ++ [constWord] ++ signs.map fun s => [s.char]) :
    ∃ x, tokensFrom [] x = ts ∧ stripped cs = undecorated x := by
  obtain ⟨x, hx, -, hapart, htrim⟩ := exists_trimEnd_undecorated (by decide) h
  refine ⟨x, hx, ?_⟩
  rw [stripped, htrim, withoutEnds_append_self (by decide)]
  refine withoutEnds_of_not_suffix fun hsuffix => ?_
  have hend : (undecorated x).getLast? = some 't' := by
    obtain ⟨r, hr⟩ := hsuffix
    rw [← hr, List.getLast?_append_of_ne_nil _ (by decide)]
    rfl
  rw [getLast?_undecorated (hx ▸ hlast)] at hend
  exact hapart 't' hend 'c' rfl (by decide)

/-- Behind template arguments nothing is cut off. -/
theorem exists_stripped_close {cs : List Char} {ts : List (List Char)} {signs : List Sign}
    (h : tokensFrom [] cs = ts ++ [['>']] ++ signs.map fun s => [s.char]) :
    ∃ x, tokensFrom [] x = ts ++ [['>']] ∧ stripped cs = undecorated x := by
  obtain ⟨x, rfl, htoken, hapart, htrim⟩ := exists_trimEnd_undecorated (by decide) h
  refine ⟨x ++ ['>'], ?_, ?_⟩
  · rw [tokensFrom_append hapart _ fun _ => .inl rfl, htoken.tokensFrom]
  · rw [stripped, htrim, undecorated_append]
    refine withoutEnds_of_not_suffix fun hsuffix => ?_
    obtain ⟨r, hr⟩ := hsuffix
    have hend := congrArg List.getLast? hr
    rw [List.getLast?_concat, List.getLast?_append_of_ne_nil _ (by decide)] at hend
    exact absurd hend (by decide)

/-- An identifier at the end is cut like the word behind it. -/
theorem exists_stripped_name {cs w : List Char} {ts : List (List Char)} {signs : List Sign}
    (hlast : ∀ u ∈ ts.getLast?, Unsigned u) (hw : ∀ c ∈ w, isWordPart c = true)
    (hcut : withoutEnds constWord w ≠ [])
    (h : tokensFrom [] cs = ts ++ [w] ++ signs.map fun s => [s.char]) :
    ∃ x, tokensFrom [] x = ts ++ [withoutEnds constWord w] ∧ stripped cs = undecorated x := by
  obtain ⟨x, rfl, -, hapart, htrim⟩ := exists_trimEnd_undecorated (unsigned_of_parts hw) h
  have hbegins : withoutEnds constWord w <+: w := withoutEnds_prefix (by decide) w
  have hparts : ∀ c ∈ withoutEnds constWord w, isWordPart c = true :=
    fun c hc => hw c (hbegins.subset hc)
  have hhead : (withoutEnds constWord w).head? = w.head? := by
    obtain ⟨r, hr⟩ := hbegins
    have hsplit := congrArg List.head? hr
    rwa [List.head?_append_of_ne_nil _ hcut] at hsplit
  have happend : Apart x (withoutEnds constWord w) := by
    intro a ha b hb
    exact hapart a ha b (hhead ▸ hb)
  refine ⟨x ++ withoutEnds constWord w, ?_, ?_⟩
  · rw [tokensFrom_append happend _ fun _ => .inl rfl, (IsToken.word hcut hparts).tokensFrom]
  · rw [stripped, htrim, undecorated_append, (unsigned_of_parts hparts).undecorated]
    refine withoutEnds_append (by decide) (fun c hc hmem => ?_) w
    -- What stands in front of the identifier is no part of a word, so it is not cut into.
    rw [getLast?_undecorated hlast] at hc
    obtain ⟨a, r, hcons⟩ := List.exists_cons_of_ne_nil hcut
    have hfirst : w.head? = some a := by rw [← hhead, hcons]; rfl
    exact hapart c hc a hfirst ⟨parts_constWord c hmem, hparts a (hcons ▸ List.mem_cons_self)⟩

/-! ### Decorated paths -/

namespace ClassPath

/-- The tokens in front of the last identifier. -/
def lead (p : ClassPath) : List (List Char) :=
  (if p.announced then [typenameWord] else []) ++ ((if p.rooted then [[':'], [':']] else []) ++
    p.outer.flatMap fun s => s.tokens ++ [[':'], [':']])

theorem tokens_eq_lead (p : ClassPath) : p.tokens = p.lead ++ p.last.tokens := by
  simp only [tokens, pathTokens, lead, List.append_assoc]

theorem tokens_withLast {p : ClassPath} (h : p.last.args = none) (name : List Char) :
    (p.withLast name).tokens = p.lead ++ [name] := by
  have hlast : (p.withLast name).last.tokens = [name] := Segment.tokens_of_none h
  rw [tokens_eq_lead, hlast]
  rfl

/-- In front of the last identifier stands a word or a colon, if anything. -/
theorem unsigned_lead {before : List (List Char)} (hbefore : ∀ u ∈ before, Unsigned u)
    (p : ClassPath) : ∀ u ∈ (before ++ p.lead).getLast?, Unsigned u := by
  intro u hu
  rcases List.eq_nil_or_concat p.outer with hnil | ⟨l, s, hconcat⟩
  · have hstart : ∀ u ∈ p.lead, Unsigned u := by
      rw [lead, hnil]
      cases p.announced <;> cases p.rooted <;> decide
    rcases List.mem_append.1 (List.mem_of_mem_getLast? hu) with hmem | hmem
    · exact hbefore u hmem
    · exact hstart u hmem
  · have hcolon : ∃ ts, p.lead = ts ++ [[':']] := by
      rw [List.concat_eq_append] at hconcat
      refine ⟨(if p.announced then [typenameWord] else []) ++
        ((if p.rooted then [[':'], [':']] else []) ++
          (l.flatMap (fun s => s.tokens ++ [[':'], [':']]) ++ (s.tokens ++ [[':']]))), ?_⟩
      rw [lead, hconcat]
      simp
    obtain ⟨ts, hts⟩ := hcolon
    rw [hts, ← List.append_assoc, List.getLast?_concat] at hu
    exact Option.some.inj hu ▸ by decide

theorem WellFormed.unsigned_tokens {p : ClassPath} (h : p.WellFormed)
    (before : List (List Char)) : ∀ u ∈ (before ++ p.tokens).getLast?, Unsigned u := by
  intro u hu
  have hlast : p.last.tokens ≠ [] := List.cons_ne_nil _ _
  rw [tokens_eq_lead, ← List.append_assoc, List.getLast?_append_of_ne_nil _ hlast] at hu
  cases hargs : p.last.args with
  | none =>
    rw [Segment.tokens_of_none hargs] at hu
    exact Option.some.inj hu ▸ unsigned_of_parts h.last.name.parts
  | some ts =>
    rw [Segment.tokens_of_some hargs, List.getLast?_concat] at hu
    exact Option.some.inj hu ▸ by decide

end ClassPath

namespace Decoration

/-- **What is left of a decorated path** is the path, perhaps cut at the end, with `const` in front
if it stood there. -/
theorem exists_stripped {d : Decoration} {p : ClassPath} (h : p.WellFormed)
    (hcut : (d.cut p).WellFormed) {cs : List Char} (hcs : tokensFrom [] cs = d.around p.tokens) :
    ∃ x, tokensFrom [] x = d.before ++ (d.cut p).tokens ∧ stripped cs = undecorated x := by
  have hbefore : ∀ u ∈ d.before, Unsigned u := by
    rw [before]
    split <;> decide
  rw [around] at hcs
  cases hbehind : d.behind with
  | true =>
    rw [hbehind] at hcs
    rw [cut, if_pos (.inl hbehind)]
    exact exists_stripped_const (h.unsigned_tokens d.before) hcs
  | false =>
    rw [hbehind, if_neg Bool.false_ne_true, List.append_nil] at hcs
    cases hargs : p.last.args with
    | some ts =>
      have hlast : d.before ++ p.tokens =
          d.before ++ (p.lead ++ p.last.name :: ['<'] :: ts) ++ [['>']] := by
        rw [p.tokens_eq_lead, Segment.tokens_of_some hargs]
        simp
      rw [cut, if_pos (.inr (by rw [hargs]; rfl)), hlast]
      exact exists_stripped_close (hlast ▸ hcs)
    | none =>
      have hcutName : d.cut p = p.withLast (withoutEnds constWord p.last.name) :=
        if_neg (by simp [hbehind, hargs])
      rw [hcutName] at hcut ⊢
      rw [p.tokens_eq_lead, Segment.tokens_of_none hargs, ← List.append_assoc] at hcs
      rw [ClassPath.tokens_withLast hargs, ← List.append_assoc]
      exact exists_stripped_name (ClassPath.unsigned_lead hbefore p) h.last.name.parts
        hcut.last.name.nonempty hcs

/-- The target of an alias is that of the decorated path. -/
theorem aliasTarget_of_tokens {d : Decoration} {p : ClassPath} (h : p.WellFormed)
    (hcut : (d.cut p).WellFormed) {s : String} (hs : Spelling.tokens s = d.around p.tokens) :
    ClassInfo.aliasTarget s = String.ofList (d.target p) := by
  obtain ⟨x, hx, hstripped⟩ := exists_stripped h hcut hs
  have hread : ClassInfo.aliasTarget s = String.ofList (classReferenceChars (undecorated x)) :=
    congrArg (fun cs => String.ofList (classReferenceChars cs)) hstripped
  rw [hread, target]
  cases hfront : d.front with
  | true =>
    rw [before, hfront] at hx
    rw [ClassPath.classReferenceChars_undecorated_const hcut hx]
    rfl
  | false =>
    rw [before, hfront] at hx
    rw [ClassPath.classReferenceChars_undecorated hcut hx]
    rfl

theorem cut_of_behind {d : Decoration} {p : ClassPath}
    (h : d.behind = true ∨ p.last.args.isSome = true ∨ ¬ constWord <:+ p.last.name) :
    d.cut p = p := by
  rw [cut]
  split
  · rfl
  · rename_i hcut
    rw [not_or] at hcut
    have hname := (h.resolve_left hcut.1).resolve_left hcut.2
    rw [withoutEnds_of_not_suffix hname]
    rfl

/-- **A decoration leaves no trace in the reference if and only if it is harmless,** among those
that leave an identifier at the end. -/
theorem target_eq_iff {d : Decoration} {p : ClassPath} (h : p.WellFormed)
    (hcut : (d.cut p).WellFormed) : d.target p = p.read.reference ↔ d.Harmless p := by
  constructor
  · intro heq
    have hbehind : d.behind = true ∨ p.last.args.isSome = true ∨ ¬ constWord <:+ p.last.name := by
      by_contra hnot
      rw [not_or, not_or, not_not] at hnot
      obtain ⟨hbehind, hargs, hsuffix⟩ := hnot
      have hname : (d.cut p).last.name = withoutEnds constWord p.last.name := by
        rw [cut, if_neg (not_or.2 ⟨hbehind, hargs⟩)]
        rfl
      have hends : ¬ constWord <:+ d.target p := by
        rw [target]
        split
        · rw [hcut.suffix_glued_iff, hname]
          exact not_suffix_withoutEnds (by decide) _
        · rw [hcut.suffix_read_iff, hname]
          exact not_suffix_withoutEnds (by decide) _
      rw [heq, h.suffix_read_iff] at hends
      exact hends hsuffix
    refine ⟨fun hfront => ?_, hbehind⟩
    rwa [target, if_pos hfront, cut_of_behind hbehind, ClassPath.reference_glued_iff] at heq
  · intro hharmless
    rw [target, cut_of_behind hharmless.behind]
    split
    · rename_i hfront
      exact (ClassPath.reference_glued_iff p).2 (hharmless.front hfront)
    · rfl

end Decoration
end Spelling

namespace ClassInfo

open Spelling

/-- **The target of an alias is the class reference of its name, whatever decorates it,** if the
decoration is harmless, and only then, among those that leave an identifier at the end. -/
theorem addAlias_decorated {p : ClassPath} (h : p.WellFormed) {d : Decoration}
    {plain decorated : String} (hplain : Spelling.tokens plain = p.tokens)
    (hdecorated : Spelling.tokens decorated = d.around p.tokens) (c : ClassInfo) (name : String) :
    (d.Harmless p → c.addAlias name decorated =
      { c with aliases := c.aliases ++ [⟨name, classReference plain⟩] }) ∧
    (IsIdentifier (Text.withoutEnds constWord p.last.name) →
      c.addAlias name decorated =
        { c with aliases := c.aliases ++ [⟨name, classReference plain⟩] } → d.Harmless p) := by
  have hread : classReference plain = String.ofList p.read.reference :=
    congrArg String.ofList (ClassPath.classReferenceChars_of_tokens h hplain)
  have hnonempty : classReference plain ≠ "" := by
    rw [hread]
    intro hempty
    exact ClassPath.reference_ne_nil h.readable_read.last.nonempty
      (String.ofList_inj.1 (hempty.trans String.ofList_nil.symm))
  constructor
  · intro hharmless
    have hcut : d.cut p = p := Decoration.cut_of_behind hharmless.behind
    have hwell : (d.cut p).WellFormed := hcut.symm ▸ h
    have htarget : aliasTarget decorated = classReference plain := by
      rw [Decoration.aliasTarget_of_tokens h hwell hdecorated,
        (Decoration.target_eq_iff h hwell).2 hharmless, hread]
    rw [addAlias, htarget]
    exact if_neg hnonempty
  · intro hname heq
    have hcut : (d.cut p).WellFormed := by
      rw [Decoration.cut]
      split
      · exact h
      · exact ⟨h.outer, hname, h.last.args⟩
    have htarget : aliasTarget decorated = classReference plain := by
      rw [addAlias] at heq
      by_cases hempty : aliasTarget decorated = ""
      · rw [if_pos hempty] at heq
        have hlength := congrArg (fun c => c.aliases.length) heq
        simp at hlength
      · rw [if_neg hempty] at heq
        have haliases := congrArg ClassInfo.aliases heq
        rw [List.append_cancel_left_eq] at haliases
        exact congrArg AliasInfo.target (List.cons.inj haliases).1
    rw [Decoration.aliasTarget_of_tokens h hcut hdecorated, hread, String.ofList_inj] at htarget
    exact (Decoration.target_eq_iff h hcut).1 htarget

/-- The hypotheses of `addAlias_decorated` are satisfiable: the first identifier of a nested name
may be glued to `const`, since it is dropped. -/
theorem addAlias_nodePath :
    let decorated : Decoration := ⟨true, true, [.pointer, .reference]⟩
    let graph : ClassInfo := { name := "Graph", space := none }
    ClassPath.nodePath.WellFormed ∧
      Spelling.tokens "ns::List<F(T)>::node" = ClassPath.nodePath.tokens ∧
      Spelling.tokens "const ns::List< F(T) >::node const*&" =
        decorated.around ClassPath.nodePath.tokens ∧
      decorated.Harmless ClassPath.nodePath ∧
      graph.addAlias "Item" "const ns::List< F(T) >::node const*&" =
        { graph with aliases := [⟨"Item", "List.node"⟩] } := by
  intro decorated graph
  have wellFormed : ClassPath.nodePath.WellFormed := by decide +kernel
  have hplain : Spelling.tokens "ns::List<F(T)>::node" = ClassPath.nodePath.tokens := by
    decide +kernel
  have hdecorated : Spelling.tokens "const ns::List< F(T) >::node const*&" =
      decorated.around ClassPath.nodePath.tokens := by
    decide +kernel
  have harmless : decorated.Harmless ClassPath.nodePath :=
    ⟨fun _ => ⟨nofun, fun _ _ => by decide⟩, .inl rfl⟩
  have hreference : classReference "ns::List<F(T)>::node" = "List.node" := by decide +kernel
  refine ⟨wellFormed, hplain, hdecorated, harmless, ?_⟩
  rw [(addAlias_decorated wellFormed hplain hdecorated _ "Item").1 harmless, hreference]
  rfl

/-- A constant class is not the class, and neither is one whose name ends like `const`. -/
theorem not_aliasTarget_const :
    aliasTarget "const Foo" = "constFoo" ∧ classReference "Foo" = "Foo" ∧
      aliasTarget "Myconst" = "My" ∧ classReference "Myconst" = "Myconst" := by
  decide +kernel

end ClassInfo
end Bindery
