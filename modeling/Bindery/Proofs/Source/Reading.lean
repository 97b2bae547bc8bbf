/-
# Expressions are read back from their texts

Only the operands that are binary operations, prefix operations, `new` and `delete` stand in
parentheses, types and template arguments are any texts, and string literals hold any characters.
Still the text of an expression can be read in one way only (`Source.text_determines_tree`).

A reader goes along the text and never looks back. What an expression is shows at its start:

| it starts with | it is |
| --- | --- |
| `"` | a string literal |
| a digit, `-` | a number |
| `*`, `&` | a prefix operation, its operand follows |
| `(` | an operand in parentheses |
| `[`, an opening brace | a lambda, an aggregate |
| the name `new`, `delete` or `static_cast` | that operation |
| another name | that name |

Behind it, `(`, `[`, `.` and `<` go on with it as a call, an index, a member or a template, and an
operator between blanks makes it the left of two operands. Nothing else goes on with it. Types and
template arguments end at the first comma, parenthesis or closing bracket that stands outside their
own brackets.

That the reader gives back what was written is proved by induction on the expression. For an
operand it says that reading its text leaves the reader where it looks for what goes on with the
operand (`Reads.operand`): the texts of a call and of its callee start alike, and the reader does
not know yet which of them it reads.
-/

import Bindery.Source.Expr
import Bindery.Proofs.Text.Ends
import Mathlib.Data.List.TakeWhile

namespace Bindery
namespace Source

/-! ### Well spelled expressions -/

/-- Which brackets are counted in a type, besides `<...>`. -/
structure Brackets where
  round : Bool := true
  square : Bool := true
  curly : Bool := true

namespace Brackets

/-- Whether a character opens a bracket. -/
def opens (b : Brackets) (c : Char) : Bool :=
  c == '<' || b.round && c == '(' || b.square && c == '[' || b.curly && c == '{'

/-- Whether a character closes a bracket. -/
def closes (b : Brackets) (c : Char) : Bool :=
  c == '>' || b.round && c == ')' || b.square && c == ']' || b.curly && c == '}'

/-- How many brackets are open behind a character. -/
def after (b : Brackets) (depth : Nat) (c : Char) : Nat :=
  if b.opens c then depth + 1 else if b.closes c then depth - 1 else depth

/-- Whether a character ends a type outside its brackets. -/
def ends (b : Brackets) (c : Char) : Bool := c == ',' || c == '(' || c == ')' || b.closes c

/-- Every bracket of the text is closed, and none but those open before. Commas and parentheses
stand inside brackets. -/
def fits (b : Brackets) (depth : Nat) : List Char → Bool
  | [] => depth == 0
  | c :: r => !(depth == 0 && b.ends c) && b.fits (b.after depth c) r

/-- A type or a template argument: not empty, its brackets are balanced, and no comma or parenthesis
stands outside them. -/
def isSpelling (b : Brackets) (s : String) : Bool := s != "" && b.fits 0 s.toList

end Brackets

/-- The characters of names: letters, digits, underscores, the colons of `::`, and everything that
is not ASCII. -/
def isNameChar (c : Char) : Bool := c.isAlphanum || c == '_' || c == ':' || 128 ≤ c.toNat

/-- The keywords that start an expression. -/
def keywords : List String := ["new", "delete", "static_cast"]

/-- A name, which may be qualified. -/
def isName (s : String) : Bool :=
  s.toList.all isNameChar && s.toList.head?.any (!·.isDigit) && !keywords.contains s

namespace Expr

mutual

/-- All names in an expression are names, and all types and template arguments are spelled well. -/
def isSpelled (b : Brackets) : Expr → Bool
  | ident name => isName name
  | string _ => true
  | int _ => true
  | call callee args => callee.isSpelled b && areSpelled b args
  | member receiver name => receiver.isSpelled b && isName name
  | template base args => base.isSpelled b && args.all b.isSpelling
  | binary _ left right => left.isSpelled b && right.isSpelled b
  | index target position => target.isSpelled b && position.isSpelled b
  | deref e => e.isSpelled b
  | addressOf e => e.isSpelled b
  | new type args => b.isSpelling type && areSpelled b args
  | delete e => e.isSpelled b
  | cast type e => b.isSpelling type && e.isSpelled b
  | lambda body => body.isSpelled b
  | brace items => areSpelled b items

/-- All of these are well spelled. -/
def areSpelled (b : Brackets) : List Expr → Bool
  | [] => true
  | e :: r => e.isSpelled b && areSpelled b r

end

/-- The text of an expression as an operand. -/
def operandChars (e : Expr) : List Char := parenthesize e.isCompound e.chars

end Expr

/-! ### The reader -/

namespace Reader

/-- The characters of a string literal, up to its closing quote. -/
def literal : List Char → Option (List Char × List Char)
  | [] => none
  | '"' :: r => some ([], r)
  | '\\' :: 'n' :: r => (literal r).map fun (s, r) => ('\n' :: s, r)
  | '\\' :: 't' :: r => (literal r).map fun (s, r) => ('\t' :: s, r)
  | '\\' :: c :: r => (literal r).map fun (s, r) => (c :: s, r)
  | c :: r => (literal r).map fun (s, r) => (c :: s, r)

/-- A number. -/
def number (cs : List Char) : Nat × List Char :=
  (Nat.ofDigitChars 10 (cs.takeWhile Char.isDigit) 0, cs.dropWhile Char.isDigit)

/-- An operator between blanks. -/
def operator? : List Char → Option (BinaryOp × List Char)
  | ' ' :: '+' :: ' ' :: r => some (.add, r)
  | ' ' :: '-' :: ' ' :: r => some (.sub, r)
  | ' ' :: '/' :: ' ' :: r => some (.div, r)
  | ' ' :: '=' :: '=' :: ' ' :: r => some (.eq, r)
  | _ => none

/-- Goes on with the rest of a text. No rest is longer than its text, so nothing is refused here;
the check is what shows that the reader ends. -/
def within {α : Type} (cs r : List Char) (f : r.length ≤ cs.length → Option α) : Option α :=
  if h : r.length ≤ cs.length then f h else none

theorem length_le_append (w r : List Char) : r.length ≤ (w ++ r).length := by
  simp

theorem length_le_append_cons (w : List Char) (c : Char) (r : List Char) :
    r.length ≤ (w ++ c :: r).length := by
  rw [List.length_append, List.length_cons]
  omega

theorem within_eq {α : Type} {cs r : List Char} (h : r.length ≤ cs.length) (x : Option α) :
    within cs r (fun _ => x) = x :=
  dif_pos h

variable (b : Brackets)

/-- A type, up to the character that ends it. -/
def type (depth : Nat) : List Char → List Char × List Char
  | [] => ([], [])
  | c :: r =>
    if depth == 0 && b.ends c then ([], c :: r)
    else
      let (s, r) := type (b.after depth c) r
      (c :: s, r)

/-- Template arguments, up to and with the bracket that closes them. -/
def templateArgs (cs : List Char) : Option (List String × List Char) :=
  match type b 0 cs with
  | (s, '>' :: r) => some (if s = [] then [] else [String.ofList s], r)
  | (s, ',' :: ' ' :: r) =>
    within cs (',' :: r) fun _ => (templateArgs r).map fun (ss, r) => (String.ofList s :: ss, r)
  | _ => none
termination_by cs.length

mutual

/-- An expression. -/
def whole (cs : List Char) : Option (Expr × List Char) := do
  let (left, r) ← operand cs
  match operator? r with
  | some (op, r) =>
    within cs r fun _ => (operand r).map fun (right, r) => (.binary op left right, r)
  | none => some (left, r)
termination_by 6 * cs.length + 2

/-- An operand: its start and all that goes on with it. -/
def operand (cs : List Char) : Option (Expr × List Char) := do
  let (e, r) ← start cs
  within cs r fun _ => goOn e r
termination_by 6 * cs.length + 1

/-- The start of an operand. -/
def start (cs : List Char) : Option (Expr × List Char) :=
  match cs with
  | '(' :: r => do
    let (e, r) ← whole r
    let r ← Text.afterStart? [')'] r
    some (e, r)
  | '"' :: r => (literal r).map fun (s, r) => (.string (String.ofList s), r)
  | '*' :: r => (operand r).map fun (e, r) => (.deref e, r)
  | '&' :: r => (operand r).map fun (e, r) => (.addressOf e, r)
  | '[' :: r => do
    let s ← Text.afterStart? "&] \x7b return ".toList r
    let (e, s) ← within r s fun _ => whole s
    let s ← Text.afterStart? "; \x7d".toList s
    some (.lambda e, s)
  | '{' :: r => (list '}' r).map fun (es, r) => (.brace es, r)
  | '-' :: r => some (.int (-(number r).1), (number r).2)
  | c :: r =>
    if c.isDigit then some (.int (number (c :: r)).1, (number (c :: r)).2)
    else if isNameChar c then
      within r (r.dropWhile isNameChar) fun _ =>
        named (c :: r.takeWhile isNameChar) (r.dropWhile isNameChar)
    else none
  | [] => none
termination_by 6 * cs.length

/-- What starts with a name. -/
def named (name r : List Char) : Option (Expr × List Char) :=
  if name = "new".toList then do
    let s ← Text.afterStart? [' '] r
    let (type, s) := type b 0 s
    let s ← Text.afterStart? ['('] s
    let (es, s) ← within r s fun _ => list ')' s
    some (.new (String.ofList type) es, s)
  else if name = "delete".toList then do
    let s ← Text.afterStart? [' '] r
    let (e, s) ← within r s fun _ => operand s
    some (.delete e, s)
  else if name = "static_cast".toList then do
    let s ← Text.afterStart? ['<'] r
    let (type, s) := type b 0 s
    let s ← Text.afterStart? ">(".toList s
    let (e, s) ← within r s fun _ => whole s
    let s ← Text.afterStart? [')'] s
    some (.cast (String.ofList type) e, s)
  else some (.ident (String.ofList name), r)
termination_by 6 * r.length + 5

/-- All that goes on with an operand. -/
def goOn (e : Expr) (cs : List Char) : Option (Expr × List Char) :=
  match cs with
  | '(' :: r => do
    let (es, s) ← list ')' r
    within r s fun _ => goOn (.call e es) s
  | '[' :: r => do
    let (i, s) ← whole r
    let s ← Text.afterStart? [']'] s
    within r s fun _ => goOn (.index e i) s
  | '.' :: r =>
    within r (r.dropWhile isNameChar) fun _ =>
      goOn (.member e (String.ofList (r.takeWhile isNameChar))) (r.dropWhile isNameChar)
  | '<' :: r => do
    let (ss, s) ← templateArgs b r
    within r s fun _ => goOn (.template e ss) s
  | cs => some (e, cs)
termination_by 6 * cs.length

/-- Expressions with commas between them, up to and with a closing character. -/
def list (close : Char) (cs : List Char) : Option (List Expr × List Char) :=
  match Text.afterStart? [close] cs with
  | some r => some ([], r)
  | none => items close cs
termination_by 6 * cs.length + 4

/-- One expression or more, up to and with a closing character. -/
def items (close : Char) (cs : List Char) : Option (List Expr × List Char) := do
  let (e, r) ← whole cs
  match Text.afterStart? [',', ' '] r with
  | some r => within cs (',' :: r) fun _ => (items close r).map fun (es, r) => (e :: es, r)
  | none => do
    let r ← Text.afterStart? [close] r
    some ([e], r)
termination_by 6 * cs.length + 3

end

end Reader

/-! ### Reading names, numbers, literals and types -/

namespace Reader

/-- No name goes on with this. -/
def Breaks (cs : List Char) : Prop := ∀ c ∈ cs.head?, isNameChar c = false

/-- No expression goes on with this: it is over, or what is around it is closed. -/
def Stops (cs : List Char) : Prop := ∀ c ∈ cs.head?, c ∈ [')', ']', '}', ',', ';']

theorem Stops.breaks {cs : List Char} (h : Stops cs) : Breaks cs := by
  intro c hc
  have hmem := h c hc
  revert hmem
  simp only [List.mem_cons, List.not_mem_nil, or_false]
  rintro (rfl | rfl | rfl | rfl | rfl) <;> rfl

theorem Breaks.isDigit {cs : List Char} (h : Breaks cs) : ∀ c ∈ cs.head?, c.isDigit = false := by
  intro c hc
  have hname := h c hc
  simp only [isNameChar, Char.isAlphanum, Bool.or_eq_false_iff] at hname
  exact hname.1.1.1.2

theorem stops_nil : Stops [] := nofun

theorem stops_cons {c : Char} (h : c ∈ [')', ']', '}', ',', ';']) (r : List Char) :
    Stops (c :: r) := by
  rintro _ ⟨⟩
  exact h

theorem breaks_cons {c : Char} (h : isNameChar c = false) (r : List Char) : Breaks (c :: r) := by
  rintro _ ⟨⟩
  exact h

theorem afterStart?_cons (c : Char) (r : List Char) : Text.afterStart? [c] (c :: r) = some r :=
  Text.afterStart?_append [c] r

theorem afterStart?_of_ne {c d : Char} (h : c ≠ d) (p r : List Char) :
    Text.afterStart? (c :: p) (d :: r) = none := by
  rw [Text.afterStart?, if_neg]
  simp [h]

/-- A run of characters ends where the first other character stands. -/
theorem span_append {p : Char → Bool} {w r : List Char} (hw : ∀ c ∈ w, p c = true)
    (hr : ∀ c ∈ r.head?, p c = false) :
    (w ++ r).takeWhile p = w ∧ (w ++ r).dropWhile p = r := by
  rw [List.takeWhile_append_of_pos hw, List.dropWhile_append_of_pos hw]
  cases r with
  | nil => exact ⟨List.append_nil w, rfl⟩
  | cons c r =>
    have hc : ¬ p c = true := Bool.eq_false_iff.1 (hr c rfl)
    rw [List.takeWhile_cons_of_neg hc, List.dropWhile_cons_of_neg hc, List.append_nil]
    exact ⟨rfl, rfl⟩

theorem literal_escapeChar (c : Char) (cs : List Char) :
    literal (Expr.escapeChar c ++ cs) = (literal cs).map fun (s, r) => (c :: s, r) := by
  unfold Expr.escapeChar
  split
  case h_5 hquote hslash _ _ =>
    rw [List.singleton_append, literal]
    · exact hquote
    · exact fun _ h _ => hslash h
    · exact fun _ h _ => hslash h
    · exact fun _ _ h _ => hslash h
  case h_1 | h_2 =>
    rw [List.cons_append, List.cons_append, List.nil_append, literal] <;> decide
  all_goals rfl

/-- **A literal ends at its own closing quote.** -/
theorem literal_append (s r : List Char) :
    literal (s.flatMap Expr.escapeChar ++ '"' :: r) = some (s, r) := by
  induction s with
  | nil => rfl
  | cons c s ih =>
    rw [List.flatMap_cons, List.append_assoc, literal_escapeChar, ih]
    rfl

theorem number_append (n : Nat) {r : List Char} (hr : ∀ c ∈ r.head?, c.isDigit = false) :
    number (Nat.toDigits 10 n ++ r) = (n, r) := by
  have hdigits : ∀ c ∈ Nat.toDigits 10 n, c.isDigit = true := fun c hc =>
    Nat.isDigit_of_mem_toDigits (by decide) (by decide) hc
  obtain ⟨htake, hdrop⟩ := span_append hdigits hr
  rw [number, htake, hdrop, Nat.ofDigitChars_ten_toDigits]

/-- A type ends where its own brackets end it. Induction on the type; more brackets are open behind
each of its beginnings. -/
theorem type_append {b : Brackets} {c : Char} (hc : b.ends c = true) (r : List Char) :
    ∀ {s : List Char} {depth : Nat}, b.fits depth s = true →
      type b depth (s ++ c :: r) = (s, c :: r)
  | [], depth, h => by
    have hdepth : (depth == 0 && b.ends c) = true := by
      rw [hc, Bool.and_true]
      exact h
    rw [List.nil_append, type, if_pos hdepth]
  | a :: s, depth, h => by
    obtain ⟨hopen, hrest⟩ := Bool.and_eq_true_iff.1 h
    have hgo : ¬ (depth == 0 && b.ends a) = true := by
      rw [Bool.not_eq_true'] at hopen
      exact Bool.eq_false_iff.1 hopen
    rw [List.cons_append, type, if_neg hgo, type_append hc r hrest]

theorem templateArgs_close {b : Brackets} {s : String} (h : b.fits 0 s.toList = true)
    (r : List Char) :
    templateArgs b (s.toList ++ '>' :: r) = some (if s.toList = [] then [] else [s], r) := by
  have htype := type_append (b := b) (c := '>') (by simp [Brackets.ends, Brackets.closes]) r h
  rw [templateArgs]
  split
  · rename_i s' r' h'
    obtain ⟨rfl, hr⟩ := Prod.mk.inj (htype.symm.trans h')
    obtain rfl := (List.cons.inj hr).2
    rw [String.ofList_toList]
  · rename_i s' r' h'
    exact absurd (List.cons.inj (Prod.mk.inj (htype.symm.trans h')).2).1 (by decide)
  · rename_i hclose _
    exact absurd htype (hclose _ _)

theorem templateArgs_comma {b : Brackets} {s : String} (h : b.fits 0 s.toList = true)
    (r : List Char) :
    templateArgs b (s.toList ++ ',' :: ' ' :: r) =
      (templateArgs b r).map fun (ss, r) => (s :: ss, r) := by
  have htype := type_append (b := b) (c := ',') (by simp [Brackets.ends]) (' ' :: r) h
  rw [templateArgs]
  split
  · rename_i s' r' h'
    exact absurd (List.cons.inj (Prod.mk.inj (htype.symm.trans h')).2).1 (by decide)
  · rename_i s' r' h'
    obtain ⟨rfl, hr⟩ := Prod.mk.inj (htype.symm.trans h')
    obtain rfl := (List.cons.inj (List.cons.inj hr).2).2
    have hlength : (',' :: r).length ≤ (s.toList ++ ',' :: ' ' :: r).length := by
      simp only [List.length_append, List.length_cons]
      omega
    rw [String.ofList_toList, within_eq hlength]
  · rename_i hcomma
    exact absurd htype (hcomma _ _)

/-- **Template arguments are read back.** -/
theorem templateArgs_append {b : Brackets} (r : List Char) :
    ∀ {args : List String}, (∀ s ∈ args, b.isSpelling s = true) →
      templateArgs b ((", ".intercalate args).toList ++ '>' :: r) = some (args, r)
  | [], _ => templateArgs_close (s := "") rfl r
  | [s], h => by
    obtain ⟨hs, hfits⟩ := Bool.and_eq_true_iff.1 (h s (List.mem_singleton_self s))
    have hne : s.toList ≠ [] := fun h => bne_iff_ne.1 hs (String.toList_eq_nil_iff.1 h)
    rw [String.intercalate_singleton, templateArgs_close hfits, if_neg hne]
  | s :: t :: args, h => by
    obtain ⟨-, hfits⟩ := Bool.and_eq_true_iff.1 (h s (List.mem_cons_self ..))
    have ih := templateArgs_append r fun u hu => h u (List.mem_cons_of_mem s hu)
    have htext : (", ".intercalate (s :: t :: args)).toList ++ '>' :: r =
        s.toList ++ ',' :: ' ' :: ((", ".intercalate (t :: args)).toList ++ '>' :: r) := by
      simp [String.intercalate_cons_cons, String.toList_append]
    rw [htext, templateArgs_comma hfits, ih]
    rfl

/-! ### Steps of the reader -/

section Steps

variable {b : Brackets} {e l : Expr} {es : List Expr} {s : String} {cs r : List Char}

theorem operator?_of_stops (h : Stops r) : operator? r = none := by
  unfold operator?
  split
  case h_5 => rfl
  all_goals exact absurd (h _ rfl) (by decide)

theorem operator?_symbol (op : BinaryOp) (r : List Char) :
    operator? (' ' :: (op.symbol ++ ' ' :: r)) = some (op, r) := by
  cases op <;> rfl

theorem operand_eq {w : List Char} (h : start b (w ++ r) = some (e, r)) :
    operand b (w ++ r) = goOn b e r := by
  rw [operand, h, Option.bind_eq_bind, Option.bind_some]
  exact within_eq (length_le_append w r) _

theorem whole_eq (h : operand b cs = some (e, r)) (hr : operator? r = none) :
    whole b cs = some (e, r) := by
  rw [whole, h, Option.bind_eq_bind, Option.bind_some]
  simp only [hr]

theorem whole_binary {op : BinaryOp} {w : List Char}
    (hl : operand b (w ++ ' ' :: (op.symbol ++ ' ' :: cs)) =
      some (l, ' ' :: (op.symbol ++ ' ' :: cs)))
    (he : operand b cs = some (e, r)) :
    whole b (w ++ ' ' :: (op.symbol ++ ' ' :: cs)) = some (.binary op l e, r) := by
  have hlength : cs.length ≤ (w ++ ' ' :: (op.symbol ++ ' ' :: cs)).length := by
    simp only [List.length_append, List.length_cons]
    omega
  rw [whole, hl, Option.bind_eq_bind, Option.bind_some]
  simp only [operator?_symbol, within_eq hlength, he, Option.map_some]

theorem start_parenthesis (h : whole b cs = some (e, ')' :: r)) :
    start b ('(' :: cs) = some (e, r) := by
  rw [start, h]
  rfl

theorem start_string (s : String) (r : List Char) :
    start b ('"' :: (s.toList.flatMap Expr.escapeChar ++ '"' :: r)) = some (.string s, r) := by
  rw [start, literal_append]
  simp only [Option.map_some, String.ofList_toList]

theorem start_deref (h : operand b cs = some (e, r)) :
    start b ('*' :: cs) = some (.deref e, r) := by
  rw [start, h]
  rfl

theorem start_addressOf (h : operand b cs = some (e, r)) :
    start b ('&' :: cs) = some (.addressOf e, r) := by
  rw [start, h]
  rfl

theorem start_lambda (h : whole b cs = some (e, "; \x7d".toList ++ r)) :
    start b ("[&] \x7b return ".toList ++ cs) = some (.lambda e, r) := by
  show start b ('[' :: ("&] \x7b return ".toList ++ cs)) = _
  rw [start]
  simp only [Text.afterStart?_append, within_eq (length_le_append _ cs), h, Option.bind_eq_bind,
    Option.bind_some]

theorem start_brace (h : list b '}' cs = some (es, r)) :
    start b ('{' :: cs) = some (.brace es, r) := by
  rw [start, h]
  rfl

theorem start_digits (n : Nat) (hr : Breaks r) :
    start b (Nat.toDigits 10 n ++ r) = some (.int n, r) := by
  have hnumber := number_append n hr.isDigit
  obtain ⟨c, ds, hds⟩ := List.exists_cons_of_ne_nil (Nat.toDigits_ne_nil (b := 10) (n := n))
  have hc : c.isDigit = true :=
    Nat.isDigit_of_mem_toDigits (by decide) (by decide) (hds ▸ List.mem_cons_self ..)
  rw [hds] at hnumber ⊢
  rw [List.cons_append] at hnumber ⊢
  rw [start, if_pos hc, hnumber]
  all_goals
    rintro rfl
    exact absurd hc (by decide)

/-- A number is read up to the first character that is no digit. -/
theorem start_int (n : Int) (hr : Breaks r) :
    start b ((Text.intText n).toList ++ r) = some (.int n, r) := by
  unfold Text.intText
  split
  · rename_i hneg
    have htext : ("-" ++ Text.natText n.natAbs).toList ++ r =
        '-' :: (Nat.toDigits 10 n.natAbs ++ r) := by
      simp [Text.natText, String.toList_append]
    rw [htext, start, number_append _ hr.isDigit]
    simp only [Int.ofNat_natAbs_of_nonpos (Int.le_of_lt hneg), Int.neg_neg]
  · rename_i hneg
    rw [Text.natText, String.toList_ofList, start_digits _ hr,
      Int.natAbs_of_nonneg (Int.not_lt.1 hneg)]

/-- What starts with a name is told by the name. -/
theorem start_name {w : List Char} (hw : w.all isNameChar = true)
    (hfirst : w.head?.any (!·.isDigit) = true) (hr : Breaks r) :
    start b (w ++ r) = named b w r := by
  have hchars := List.all_eq_true.1 hw
  obtain ⟨c, v, rfl⟩ : ∃ c v, w = c :: v := by
    cases w with
    | nil => exact absurd hfirst nofun
    | cons c v => exact ⟨c, v, rfl⟩
  have hc := hchars c (List.mem_cons_self ..)
  have hdigit : ¬ c.isDigit = true := by
    simpa using hfirst
  obtain ⟨htake, hdrop⟩ := span_append (fun d hd => hchars d (List.mem_cons_of_mem c hd)) hr
  rw [List.cons_append, start, if_neg hdigit, if_pos hc, htake, hdrop,
    within_eq (length_le_append v r)]
  all_goals
    rintro rfl
    exact absurd hc (by decide)

theorem start_ident (h : isName s = true) (hr : Breaks r) :
    start b (s.toList ++ r) = some (.ident s, r) := by
  obtain ⟨h, hkeyword⟩ := Bool.and_eq_true_iff.1 h
  obtain ⟨hw, hfirst⟩ := Bool.and_eq_true_iff.1 h
  have hne : ∀ k ∈ keywords, s.toList ≠ k.toList := by
    intro k hk heq
    rw [String.toList_inj.1 heq, List.contains_iff_mem.2 hk] at hkeyword
    exact absurd hkeyword nofun
  rw [start_name hw hfirst hr, named, if_neg (hne "new" (by decide)),
    if_neg (hne "delete" (by decide)), if_neg (hne "static_cast" (by decide)),
    String.ofList_toList]

theorem start_new (hs : b.fits 0 s.toList = true) (h : list b ')' cs = some (es, r)) :
    start b ("new ".toList ++ (s.toList ++ '(' :: cs)) = some (.new s es, r) := by
  show start b ("new".toList ++ ' ' :: (s.toList ++ '(' :: cs)) = _
  have htype := type_append (b := b) (c := '(') (by simp [Brackets.ends]) cs hs
  have hlength := length_le_append_cons (' ' :: s.toList) '(' cs
  rw [List.cons_append] at hlength
  rw [start_name rfl rfl (breaks_cons rfl _), named, if_pos rfl]
  simp only [afterStart?_cons, htype, within_eq hlength, h, Option.bind_eq_bind,
    Option.bind_some, String.ofList_toList]

theorem start_delete (h : operand b cs = some (e, r)) :
    start b ("delete ".toList ++ cs) = some (.delete e, r) := by
  show start b ("delete".toList ++ ' ' :: cs) = _
  rw [start_name rfl rfl (breaks_cons rfl _), named, if_neg (by decide), if_pos rfl]
  have hlength : cs.length ≤ (' ' :: cs).length := Nat.le_succ _
  simp only [afterStart?_cons, within_eq hlength, h, Option.bind_eq_bind, Option.bind_some]

theorem start_cast (hs : b.fits 0 s.toList = true) (h : whole b cs = some (e, ')' :: r)) :
    start b ("static_cast<".toList ++ (s.toList ++ (">(".toList ++ cs))) = some (.cast s e, r) := by
  show start b ("static_cast".toList ++ '<' :: (s.toList ++ '>' :: '(' :: cs)) = _
  have htype := type_append (b := b) (c := '>') (by simp [Brackets.ends, Brackets.closes])
    ('(' :: cs) hs
  have hclose : Text.afterStart? ">(".toList ('>' :: '(' :: cs) = some cs :=
    Text.afterStart?_append ['>', '('] cs
  have hlength : cs.length ≤ ('<' :: (s.toList ++ '>' :: '(' :: cs)).length := by
    simp only [List.length_append, List.length_cons]
    omega
  rw [start_name rfl rfl (breaks_cons rfl _), named, if_neg (by decide), if_neg (by decide),
    if_pos rfl]
  simp only [afterStart?_cons, htype, hclose, within_eq hlength, h, Option.bind_eq_bind,
    Option.bind_some, String.ofList_toList]

theorem goOn_call {w : List Char} (h : list b ')' (w ++ ')' :: r) = some (es, r)) :
    goOn b e ('(' :: (w ++ ')' :: r)) = goOn b (.call e es) r := by
  rw [goOn, h, Option.bind_eq_bind, Option.bind_some]
  exact within_eq (length_le_append_cons w ')' r) _

theorem goOn_index {w : List Char} (h : whole b (w ++ ']' :: r) = some (l, ']' :: r)) :
    goOn b e ('[' :: (w ++ ']' :: r)) = goOn b (.index e l) r := by
  rw [goOn, h]
  simp only [afterStart?_cons, within_eq (length_le_append_cons w ']' r), Option.bind_eq_bind,
    Option.bind_some]

theorem goOn_member (h : isName s = true) (hr : Breaks r) :
    goOn b e ('.' :: (s.toList ++ r)) = goOn b (.member e s) r := by
  obtain ⟨h, -⟩ := Bool.and_eq_true_iff.1 h
  obtain ⟨hw, -⟩ := Bool.and_eq_true_iff.1 h
  obtain ⟨htake, hdrop⟩ := span_append (List.all_eq_true.1 hw) hr
  rw [goOn, htake, hdrop, String.ofList_toList, within_eq (length_le_append s.toList r)]

theorem goOn_template {args : List String} (h : ∀ s ∈ args, b.isSpelling s = true) :
    goOn b e ('<' :: ((", ".intercalate args).toList ++ '>' :: r)) =
      goOn b (.template e args) r := by
  rw [goOn, templateArgs_append r h, Option.bind_eq_bind, Option.bind_some]
  exact within_eq (length_le_append_cons _ '>' r) _

/-- A blank, and what stops an expression, do not go on with an operand. -/
theorem goOn_eq (h : ∀ c ∈ cs.head?, c ∈ [' ', ')', ']', '}', ',', ';']) :
    goOn b e cs = some (e, cs) := by
  rw [goOn]
  all_goals
    rintro r rfl
    exact absurd (h _ rfl) (by decide)

/-- No expression starts with a character that closes a list. -/
theorem whole_close {close : Char} (h : close = ')' ∨ close = '}') (r : List Char) :
    whole b (close :: r) = none := by
  have hstart : start b (close :: r) = none := by
    rcases h with rfl | rfl
    all_goals
      rw [start, if_neg (by decide), if_neg (by decide)]
      all_goals decide
  rw [whole, operand, hstart]
  rfl

theorem list_nil (close : Char) (r : List Char) : list b close (close :: r) = some ([], r) := by
  rw [list, afterStart?_cons]

/-- A list with something in it does not start with the character that closes it. -/
theorem list_eq {close : Char} (hclose : close = ')' ∨ close = '}')
    (h : items b close cs = some (es, r)) :
    list b close cs = some (es, r) := by
  have hopen : Text.afterStart? [close] cs = none := by
    cases cs with
    | nil => rfl
    | cons c cs =>
      refine afterStart?_of_ne ?_ [] cs
      rintro rfl
      rw [items, whole_close hclose] at h
      exact absurd h nofun
  rw [list, hopen, h]

theorem items_singleton {close : Char} (hclose : close = ')' ∨ close = '}')
    (h : whole b cs = some (e, close :: r)) : items b close cs = some ([e], r) := by
  have hcomma : Text.afterStart? [',', ' '] (close :: r) = none := by
    refine afterStart?_of_ne ?_ [' '] r
    rintro rfl
    exact absurd hclose (by decide)
  rw [items, h]
  simp only [hcomma, afterStart?_cons, Option.bind_eq_bind, Option.bind_some]

theorem items_cons {close : Char} {w : List Char}
    (h : whole b (w ++ ',' :: ' ' :: cs) = some (e, ',' :: ' ' :: cs))
    (hrest : items b close cs = some (es, r)) :
    items b close (w ++ ',' :: ' ' :: cs) = some (e :: es, r) := by
  have hcomma : Text.afterStart? [',', ' '] (',' :: ' ' :: cs) = some cs :=
    Text.afterStart?_append [',', ' '] cs
  have hlength : (',' :: cs).length ≤ (w ++ ',' :: ' ' :: cs).length := by
    simp only [List.length_append, List.length_cons]
    omega
  rw [items, h]
  simp only [hcomma, within_eq hlength, hrest, Option.map_some, Option.bind_eq_bind,
    Option.bind_some]

end Steps

end Reader

open Reader

/-! ### Reading what was written -/

/-- The text of an expression is read as that expression, whatever follows it: where an operand is
looked for, up to what goes on with it, and where an expression is looked for. -/
structure Reads (b : Brackets) (e : Expr) : Prop where
  operand : ∀ r, Breaks r → Reader.operand b (e.operandChars ++ r) = goOn b e r
  whole : ∀ r, Stops r → Reader.whole b (e.chars ++ r) = some (e, r)

/-- Expressions with commas between them are read up to the character that closes their list. -/
def ReadsAll (b : Brackets) (es : List Expr) : Prop :=
  ∀ close r, close = ')' ∨ close = '}' →
    list b close (Expr.charsList es ++ close :: r) = some (es, r)

namespace Reads

variable {b : Brackets} {e l i : Expr}

/-- An operand that nothing goes on with. -/
theorem operand_of_stops (h : Reads b e) {r : List Char} (hr : Stops r) :
    Reader.operand b (e.operandChars ++ r) = some (e, r) := by
  rw [h.operand r hr.breaks, goOn_eq fun c hc => List.mem_cons_of_mem ' ' (hr c hc)]

/-- An operand without parentheses is an expression. -/
theorem of_operand (hplain : e.isCompound = false)
    (h : ∀ r, Breaks r → Reader.operand b (e.chars ++ r) = goOn b e r) : Reads b e := by
  have htext : e.operandChars = e.chars := by
    rw [Expr.operandChars, hplain]
    rfl
  refine ⟨fun r hr => by rw [htext, h r hr], fun r hr => ?_⟩
  refine whole_eq ?_ (operator?_of_stops hr)
  rw [h r hr.breaks, goOn_eq fun c hc => List.mem_cons_of_mem ' ' (hr c hc)]

/-- An expression in parentheses is an operand. -/
theorem of_whole (hcompound : e.isCompound = true)
    (h : ∀ r, Stops r → Reader.whole b (e.chars ++ r) = some (e, r)) : Reads b e := by
  refine ⟨fun r _ => ?_, h⟩
  have htext : e.operandChars ++ r = '(' :: (e.chars ++ ')' :: r) := by
    rw [Expr.operandChars, hcompound]
    simp [Expr.parenthesize]
  refine operand_eq ?_
  rw [htext]
  exact start_parenthesis (h _ (stops_cons (by decide) r))

/-- A prefix operation is known as a whole when it starts. -/
theorem of_start (hcompound : e.isCompound = true)
    (h : ∀ r, Stops r → start b (e.chars ++ r) = some (e, r)) : Reads b e := by
  refine of_whole hcompound fun r hr => whole_eq ?_ (operator?_of_stops hr)
  rw [operand_eq (h r hr), goOn_eq fun c hc => List.mem_cons_of_mem ' ' (hr c hc)]

theorem ident {name : String} (h : isName name = true) : Reads b (.ident name) :=
  of_operand rfl fun _ hr => operand_eq (start_ident h hr)

theorem string (s : String) : Reads b (.string s) := by
  refine of_operand rfl fun r _ => ?_
  have htext : (Expr.string s).chars ++ r =
      '"' :: (s.toList.flatMap Expr.escapeChar ++ '"' :: r) := by
    show '"' :: (s.toList.flatMap Expr.escapeChar ++ ['"']) ++ r = _
    simp
  refine operand_eq ?_
  rw [htext]
  exact start_string s r

theorem int (n : Int) : Reads b (.int n) :=
  of_operand rfl fun _ hr => operand_eq (start_int n hr)

theorem call {args : List Expr} (hl : Reads b l) (ha : ReadsAll b args) :
    Reads b (.call l args) := by
  refine of_operand rfl fun r _ => ?_
  have htext : (Expr.call l args).chars ++ r =
      l.operandChars ++ '(' :: (Expr.charsList args ++ ')' :: r) := by
    show l.operandChars ++ '(' :: (Expr.charsList args ++ [')']) ++ r = _
    simp
  rw [htext, hl.operand _ (breaks_cons rfl _), goOn_call (ha ')' r (.inl rfl))]

theorem member {name : String} (hl : Reads b l) (h : isName name = true) :
    Reads b (.member l name) := by
  refine of_operand rfl fun r hr => ?_
  have htext : (Expr.member l name).chars ++ r = l.operandChars ++ '.' :: (name.toList ++ r) :=
    List.append_assoc l.operandChars ('.' :: name.toList) r
  rw [htext, hl.operand _ (breaks_cons rfl _), goOn_member h hr]

theorem template {args : List String} (hl : Reads b l) (h : ∀ s ∈ args, b.isSpelling s = true) :
    Reads b (.template l args) := by
  refine of_operand rfl fun r _ => ?_
  have htext : (Expr.template l args).chars ++ r =
      l.operandChars ++ '<' :: ((", ".intercalate args).toList ++ '>' :: r) := by
    show l.operandChars ++ '<' :: ((", ".intercalate args).toList ++ ['>']) ++ r = _
    simp
  rw [htext, hl.operand _ (breaks_cons rfl _), goOn_template h]

theorem binary (op : BinaryOp) (hl : Reads b l) (he : Reads b e) : Reads b (.binary op l e) := by
  refine of_whole rfl fun r hr => ?_
  have htext : (Expr.binary op l e).chars ++ r =
      l.operandChars ++ ' ' :: (op.symbol ++ ' ' :: (e.operandChars ++ r)) := by
    show l.operandChars ++ ' ' :: (op.symbol ++ ' ' :: e.operandChars) ++ r = _
    simp
  rw [htext]
  refine whole_binary ?_ (he.operand_of_stops hr)
  rw [hl.operand _ (breaks_cons rfl _), goOn_eq]
  rintro _ ⟨⟩
  decide

theorem index (hl : Reads b l) (hi : Reads b i) : Reads b (.index l i) := by
  refine of_operand rfl fun r _ => ?_
  have htext : (Expr.index l i).chars ++ r = l.operandChars ++ '[' :: (i.chars ++ ']' :: r) := by
    show l.operandChars ++ '[' :: (i.chars ++ [']']) ++ r = _
    simp
  rw [htext, hl.operand _ (breaks_cons rfl _),
    goOn_index (hi.whole _ (stops_cons (by decide) r))]

theorem deref (he : Reads b e) : Reads b (.deref e) :=
  of_start rfl fun _ hr => start_deref (he.operand_of_stops hr)

theorem addressOf (he : Reads b e) : Reads b (.addressOf e) :=
  of_start rfl fun _ hr => start_addressOf (he.operand_of_stops hr)

theorem new {type : String} {args : List Expr} (h : b.isSpelling type = true)
    (ha : ReadsAll b args) : Reads b (.new type args) := by
  refine of_start rfl fun r hr => ?_
  have htext : (Expr.new type args).chars ++ r =
      "new ".toList ++ (type.toList ++ '(' :: (Expr.charsList args ++ ')' :: r)) := by
    show "new ".toList ++ type.toList ++ '(' :: (Expr.charsList args ++ [')']) ++ r = _
    simp
  rw [htext, start_new (Bool.and_eq_true_iff.1 h).2 (ha ')' r (.inl rfl))]

theorem delete (he : Reads b e) : Reads b (.delete e) := by
  refine of_start rfl fun r hr => ?_
  have htext : (Expr.delete e).chars ++ r = "delete ".toList ++ (e.operandChars ++ r) :=
    List.append_assoc "delete ".toList e.operandChars r
  rw [htext, start_delete (he.operand_of_stops hr)]

theorem cast {type : String} (h : b.isSpelling type = true) (he : Reads b e) :
    Reads b (.cast type e) := by
  refine of_operand rfl fun r _ => operand_eq ?_
  have htext : (Expr.cast type e).chars ++ r =
      "static_cast<".toList ++ (type.toList ++ (">(".toList ++ (e.chars ++ ')' :: r))) := by
    show "static_cast<".toList ++ type.toList ++ ">(".toList ++ e.chars ++ [')'] ++ r = _
    simp
  rw [htext, start_cast (Bool.and_eq_true_iff.1 h).2 (he.whole _ (stops_cons (by decide) r))]

theorem lambda (he : Reads b e) : Reads b (.lambda e) := by
  refine of_operand rfl fun r _ => operand_eq ?_
  have htext : (Expr.lambda e).chars ++ r =
      "[&] \x7b return ".toList ++ (e.chars ++ ("; \x7d".toList ++ r)) := by
    show "[&] \x7b return ".toList ++ e.chars ++ "; \x7d".toList ++ r = _
    simp
  rw [htext, start_lambda (he.whole ("; \x7d".toList ++ r) (stops_cons (by decide) _))]

theorem brace {items : List Expr} (h : ReadsAll b items) : Reads b (.brace items) := by
  refine of_operand rfl fun r _ => operand_eq ?_
  have htext : (Expr.brace items).chars ++ r = '{' :: (Expr.charsList items ++ '}' :: r) := by
    show '{' :: (Expr.charsList items ++ ['}']) ++ r = _
    simp
  rw [htext, start_brace (h '}' r (.inr rfl))]

end Reads

/-- One expression or more are read up to the character that closes their list. -/
theorem items_append {b : Brackets} {close : Char} (hclose : close = ')' ∨ close = '}')
    (r : List Char) :
    ∀ {e : Expr} {es : List Expr}, Reads b e → (∀ d ∈ es, Reads b d) →
      items b close (Expr.charsList (e :: es) ++ close :: r) = some (e :: es, r)
  | e, [], he, _ => by
    have hstop : close ∈ [')', ']', '}', ',', ';'] := by
      rcases hclose with rfl | rfl <;> decide
    exact items_singleton hclose (he.whole _ (stops_cons hstop r))
  | e, d :: es, he, hes => by
    have ih := items_append hclose r (hes d (List.mem_cons_self ..))
      fun d' hd' => hes d' (List.mem_cons_of_mem d hd')
    have htext : Expr.charsList (e :: d :: es) ++ close :: r =
        e.chars ++ ',' :: ' ' :: (Expr.charsList (d :: es) ++ close :: r) :=
      List.append_assoc e.chars (',' :: ' ' :: Expr.charsList (d :: es)) (close :: r)
    rw [htext]
    exact items_cons (he.whole _ (stops_cons (by decide) _)) ih

theorem readsAll {b : Brackets} {es : List Expr} (h : ∀ e ∈ es, Reads b e) : ReadsAll b es := by
  intro close r hclose
  cases es with
  | nil => exact list_nil close r
  | cons e es =>
    exact list_eq hclose (items_append hclose r (h e (List.mem_cons_self ..))
      fun d hd => h d (List.mem_cons_of_mem e hd))

mutual

/-- **A well spelled expression is read back,** by induction on the expression. -/
theorem reads {b : Brackets} : ∀ {e : Expr}, e.isSpelled b = true → Reads b e
  | .ident _, h => .ident h
  | .string s, _ => .string s
  | .int n, _ => .int n
  | .call callee args, h => by
    obtain ⟨hcallee, hargs⟩ := Bool.and_eq_true_iff.1 h
    exact .call (reads hcallee) (readsAll (reads_all hargs))
  | .member receiver name, h => by
    obtain ⟨hreceiver, hname⟩ := Bool.and_eq_true_iff.1 h
    exact .member (reads hreceiver) hname
  | .template base args, h => by
    obtain ⟨hbase, hargs⟩ := Bool.and_eq_true_iff.1 h
    exact .template (reads hbase) (List.all_eq_true.1 hargs)
  | .binary op left right, h => by
    obtain ⟨hleft, hright⟩ := Bool.and_eq_true_iff.1 h
    exact .binary op (reads hleft) (reads hright)
  | .index target position, h => by
    obtain ⟨htarget, hposition⟩ := Bool.and_eq_true_iff.1 h
    exact .index (reads htarget) (reads hposition)
  | .deref e, h => .deref (reads (e := e) h)
  | .addressOf e, h => .addressOf (reads (e := e) h)
  | .new type args, h => by
    obtain ⟨htype, hargs⟩ := Bool.and_eq_true_iff.1 h
    exact .new htype (readsAll (reads_all hargs))
  | .delete e, h => .delete (reads (e := e) h)
  | .cast type e, h => by
    obtain ⟨htype, he⟩ := Bool.and_eq_true_iff.1 h
    exact .cast htype (reads he)
  | .lambda body, h => .lambda (reads (e := body) h)
  | .brace items, h => .brace (readsAll (reads_all h))

theorem reads_all {b : Brackets} : ∀ {es : List Expr}, Expr.areSpelled b es = true →
    ∀ e ∈ es, Reads b e
  | [], _ => nofun
  | e :: es, h => by
    obtain ⟨he, hes⟩ := Bool.and_eq_true_iff.1 h
    exact List.forall_mem_cons.2 ⟨reads he, reads_all hes⟩

end

/-! ### Texts and trees -/

namespace Expr

variable {b : Brackets} {d e : Expr}

/-- Whatever an expression stands in ends it, and does not go on with it. -/
theorem eq_of_chars_append (hd : d.isSpelled b = true) (he : e.isSpelled b = true)
    {r s : List Char} (hr : Stops r) (hs : Stops s) (h : d.chars ++ r = e.chars ++ s) :
    d = e ∧ r = s := by
  have hread := (reads hd).whole r hr
  rw [h, (reads he).whole s hs] at hread
  obtain ⟨rfl, rfl⟩ := Prod.mk.inj (Option.some.inj hread)
  exact ⟨rfl, rfl⟩

/-- The parentheses round an operand end with it. -/
theorem eq_of_operandChars_append (hd : d.isSpelled b = true) (he : e.isSpelled b = true)
    (hdc : d.isCompound = true) (hec : e.isCompound = true) {r s : List Char}
    (h : d.operandChars ++ r = e.operandChars ++ s) : d = e ∧ r = s := by
  have htext : ∀ {e : Expr} (r : List Char), e.isCompound = true →
      e.operandChars ++ r = '(' :: (e.chars ++ ')' :: r) := by
    intro e r hcompound
    rw [operandChars, hcompound]
    simp [parenthesize]
  rw [htext r hdc, htext s hec] at h
  obtain ⟨rfl, hrest⟩ := eq_of_chars_append hd he (stops_cons (by decide) r)
    (stops_cons (by decide) s) (List.cons.inj h).2
  exact ⟨rfl, (List.cons.inj hrest).2⟩

theorem eq_of_literal_append {s t : String} {r r' : List Char}
    (h : (string s).chars ++ r = (string t).chars ++ r') : s = t ∧ r = r' := by
  have htext : ∀ (s : String) (r : List Char),
      (string s).chars ++ r = '"' :: (s.toList.flatMap escapeChar ++ '"' :: r) := by
    intro s r
    show '"' :: (s.toList.flatMap escapeChar ++ ['"']) ++ r = _
    simp
  rw [htext, htext] at h
  have hread := literal_append s.toList r
  rw [(List.cons.inj h).2, literal_append] at hread
  obtain ⟨hst, rfl⟩ := Prod.mk.inj (Option.some.inj hread)
  exact ⟨(String.toList_inj.1 hst).symm, rfl⟩

end Expr

/-- **A text has one tree.** Two expressions with one text are one expression, whichever brackets
are counted in their types. The parentheses round an operand tell where it ends, whatever stands
behind them, and so do the quotes of a string literal, whatever its characters are. -/
theorem text_determines_tree (b : Brackets) :
    (∀ d e : Expr, d.isSpelled b = true → e.isSpelled b = true → d.text = e.text → d = e) ∧
    (∀ d e : Expr, d.isSpelled b = true → e.isSpelled b = true → d.isCompound = true →
      e.isCompound = true → ∀ r s, d.operandChars ++ r = e.operandChars ++ s → d = e ∧ r = s) ∧
    ∀ (s t : String) (r r' : List Char), (Expr.string s).chars ++ r = (Expr.string t).chars ++ r' →
      s = t ∧ r = r' := by
  refine ⟨fun d e hd he h => ?_, fun d e hd he hdc hec r s h => ?_, fun s t r r' h => ?_⟩
  · have hchars : d.chars ++ [] = e.chars ++ [] := by
      rw [List.append_nil, List.append_nil]
      exact String.ofList_injective h
    exact (Expr.eq_of_chars_append hd he stops_nil stops_nil hchars).1
  · exact Expr.eq_of_operandChars_append hd he hdc hec h
  · exact Expr.eq_of_literal_append h

/-- `(*p).x - -1` -/
def memberOfTarget : Expr :=
  .binary .sub (.member (.deref (.ident "p")) "x") (.int (-1))

/-- `(*p.x) - -1` -/
def targetOfMember : Expr :=
  .binary .sub (.deref (.member (.ident "p") "x")) (.int (-1))

/-- The hypotheses of `text_determines_tree` are satisfiable: two trees of the same names and
operations are well spelled, and so they have different texts. -/
theorem text_determines_tree_near :
    memberOfTarget.isSpelled {} = true ∧ targetOfMember.isSpelled {} = true ∧
      memberOfTarget.text ≠ targetOfMember.text ∧ memberOfTarget.isCompound = true ∧
      targetOfMember.isCompound = true ∧
      ∀ r s, memberOfTarget.operandChars ++ r ≠ targetOfMember.operandChars ++ s := by
  have hm : memberOfTarget.isSpelled {} = true := by decide
  have ht : targetOfMember.isSpelled {} = true := by decide
  have hne : memberOfTarget ≠ targetOfMember := nofun
  obtain ⟨htext, hoperand, -⟩ := text_determines_tree {}
  exact ⟨hm, ht, fun h => hne (htext _ _ hm ht h), rfl, rfl,
    fun r s h => hne (hoperand _ _ hm ht rfl rfl r s h).1⟩

end Source
end Bindery
