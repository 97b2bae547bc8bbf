/-
# JSON tokens

The text of a JSON value is a sequence of tokens, between which blanks may stand. Only space,
tab, line feed and carriage return are blanks here.

| token | spelling |
| --- | --- |
| brackets, braces, colon, comma | themselves |
| a text | between double quotes, without control characters, with escapes |
| a number | optional minus, digits without a leading zero, optional places, optional exponent |
| `true`, `false`, `null` | themselves |

An escape `\uXXXX` gives a UTF-16 unit; a leading and a trailing surrogate give one character.
-/

import Bindery.Text.Digits

namespace Bindery
namespace Json

open Text

/-- A token of a JSON text. -/
inductive Token where
  | openArray | closeArray | openObject | closeObject | colon | comma
  | null | bool (b : Bool)
  | number (spelling : String)
  | text (s : Option String)
  deriving DecidableEq

/-- What stands in a text: a character, or a unit given by its number. -/
inductive Piece where
  | char (c : Char)
  | unit (n : Nat)

/-- The character that a short escape stands for. -/
def shortEscape? : Char → Option Char
  | '"' => some '"'
  | '\\' => some '\\'
  | '/' => some '/'
  | 'b' => some '\x08'
  | 'f' => some '\x0c'
  | 'n' => some '\n'
  | 'r' => some '\r'
  | 't' => some '\t'
  | _ => none

/-- Puts a piece in front of what is scanned behind it. -/
def consPiece (p : Piece) (scanned : Option (List Piece × List Char)) :
    Option (List Piece × List Char) :=
  scanned.map fun (ps, rest) => (p :: ps, rest)

/-- The pieces up to the closing quote, and what follows it. -/
def scanText : List Char → Option (List Piece × List Char)
  | [] => none
  | '"' :: r => some ([], r)
  | '\\' :: 'u' :: a :: b :: c :: d :: r =>
    match readHex? [a, b, c, d] with
    | some n => consPiece (.unit n) (scanText r)
    | none => none
  | '\\' :: e :: r =>
    match shortEscape? e with
    | some c => consPiece (.char c) (scanText r)
    | none => none
  | c :: r => if c.toNat < 0x20 then none else consPiece (.char c) (scanText r)

/-- The characters of a text; `none` if a surrogate stands alone. -/
def characters? : List Piece → Option (List Char)
  | [] => some []
  | .char c :: r => (characters? r).map (c :: ·)
  | .unit n :: .unit m :: r =>
    if 0xD800 ≤ n ∧ n < 0xDC00 ∧ 0xDC00 ≤ m ∧ m < 0xE000 then
      (characters? r).map (Char.ofNat (0x10000 + (n - 0xD800) * 0x400 + (m - 0xDC00)) :: ·)
    else if 0xD800 ≤ n ∧ n < 0xE000 then none
    else (characters? (.unit m :: r)).map (Char.ofNat n :: ·)
  | .unit n :: r =>
    if 0xD800 ≤ n ∧ n < 0xE000 then none else (characters? r).map (Char.ofNat n :: ·)

/-- Whether a character is a decimal digit. -/
def isDigit (c : Char) : Bool := (digitValue? c).isSome

/-- At least one digit. -/
def scanDigits (cs : List Char) : Option (List Char × List Char) :=
  let digits := cs.takeWhile isDigit
  if digits = [] then none else some (digits, cs.dropWhile isDigit)

/-- The digits before the point: zero alone, or digits that start with no zero. -/
def scanWhole : List Char → Option (List Char × List Char)
  | '0' :: r => some (['0'], r)
  | cs => scanDigits cs

/-- The point and the digits behind it, if there is a point. -/
def scanPlaces : List Char → Option (List Char × List Char)
  | '.' :: r => (scanDigits r).map fun (ds, rest) => ('.' :: ds, rest)
  | cs => some ([], cs)

/-- The sign of an exponent and its digits. -/
def scanSigned : List Char → Option (List Char × List Char)
  | '+' :: r => (scanDigits r).map fun (ds, rest) => ('+' :: ds, rest)
  | '-' :: r => (scanDigits r).map fun (ds, rest) => ('-' :: ds, rest)
  | cs => scanDigits cs

/-- The exponent, if there is one. -/
def scanExponent : List Char → Option (List Char × List Char)
  | 'e' :: r => (scanSigned r).map fun (ds, rest) => ('e' :: ds, rest)
  | 'E' :: r => (scanSigned r).map fun (ds, rest) => ('E' :: ds, rest)
  | cs => some ([], cs)

/-- A number without its minus sign. -/
def scanUnsigned (cs : List Char) : Option (List Char × List Char) := do
  let (whole, r) ← scanWhole cs
  let (places, r) ← scanPlaces r
  let (exponent, r) ← scanExponent r
  some (whole ++ places ++ exponent, r)

/-- A number. -/
def scanNumber : List Char → Option (List Char × List Char)
  | '-' :: r => (scanUnsigned r).map fun (ds, rest) => ('-' :: ds, rest)
  | cs => scanUnsigned cs

/-- The token at the start of a text without leading blanks, and what follows it. -/
def scan : List Char → Option (Token × List Char)
  | '[' :: r => some (.openArray, r)
  | ']' :: r => some (.closeArray, r)
  | '{' :: r => some (.openObject, r)
  | '}' :: r => some (.closeObject, r)
  | ':' :: r => some (.colon, r)
  | ',' :: r => some (.comma, r)
  | '"' :: r => (scanText r).map fun (ps, rest) => (.text ((characters? ps).map String.ofList), rest)
  | 'n' :: 'u' :: 'l' :: 'l' :: r => some (.null, r)
  | 't' :: 'r' :: 'u' :: 'e' :: r => some (.bool true, r)
  | 'f' :: 'a' :: 'l' :: 's' :: 'e' :: r => some (.bool false, r)
  | cs => (scanNumber cs).map fun (ds, rest) => (.number (String.ofList ds), rest)

/-- Whether a character may stand between tokens. -/
def isGap (c : Char) : Bool := c == ' ' || c == '\n' || c == '\t' || c == '\r'

theorem length_scanText_lt (cs : List Char) :
    ∀ ps rest, scanText cs = some (ps, rest) → rest.length < cs.length := by
  fun_induction scanText cs with
  | case1 => simp
  | case2 r => intro ps rest h; simp at h; obtain ⟨_, rfl⟩ := h; simp
  | case3 a b c d r n hn ih =>
    intro ps rest h
    obtain ⟨⟨ps', rest'⟩, hs, he⟩ := Option.map_eq_some_iff.1 h
    cases he
    have := ih _ _ hs
    simp; omega
  | case4 => simp
  | case5 e r _ c hc ih =>
    intro ps rest h
    obtain ⟨⟨ps', rest'⟩, hs, he⟩ := Option.map_eq_some_iff.1 h
    cases he
    have := ih _ _ hs
    simp; omega
  | case6 => simp
  | case7 => simp
  | case8 c r _ _ _ _ ih =>
    intro ps rest h
    obtain ⟨⟨ps', rest'⟩, hs, he⟩ := Option.map_eq_some_iff.1 h
    cases he
    have := ih _ _ hs
    simp; omega

theorem length_scanDigits_lt {cs ds rest : List Char} (h : scanDigits cs = some (ds, rest)) :
    rest.length < cs.length := by
  unfold scanDigits at h
  simp only at h
  split at h
  · cases h
  · rename_i hne
    cases h
    have hl := congrArg List.length (List.takeWhile_append_dropWhile (p := isDigit) (l := cs))
    simp only [List.length_append] at hl
    have : 0 < (cs.takeWhile isDigit).length := List.length_pos_iff.2 hne
    omega

theorem length_scanWhole_lt {cs ds rest : List Char} (h : scanWhole cs = some (ds, rest)) :
    rest.length < cs.length := by
  unfold scanWhole at h
  split at h
  · cases h; simp
  · exact length_scanDigits_lt h

theorem length_scanPlaces_le {cs ds rest : List Char} (h : scanPlaces cs = some (ds, rest)) :
    rest.length ≤ cs.length := by
  unfold scanPlaces at h
  split at h
  · obtain ⟨⟨ds', rest'⟩, hs, he⟩ := Option.map_eq_some_iff.1 h
    cases he
    have := length_scanDigits_lt hs
    simp; omega
  · cases h; exact Nat.le_refl _

theorem length_scanSigned_lt {cs ds rest : List Char} (h : scanSigned cs = some (ds, rest)) :
    rest.length < cs.length := by
  unfold scanSigned at h
  split at h
  · obtain ⟨⟨ds', rest'⟩, hs, he⟩ := Option.map_eq_some_iff.1 h
    cases he
    have := length_scanDigits_lt hs
    simp; omega
  · obtain ⟨⟨ds', rest'⟩, hs, he⟩ := Option.map_eq_some_iff.1 h
    cases he
    have := length_scanDigits_lt hs
    simp; omega
  · exact length_scanDigits_lt h

theorem length_scanExponent_le {cs ds rest : List Char} (h : scanExponent cs = some (ds, rest)) :
    rest.length ≤ cs.length := by
  unfold scanExponent at h
  split at h
  · obtain ⟨⟨ds', rest'⟩, hs, he⟩ := Option.map_eq_some_iff.1 h
    cases he
    have := length_scanSigned_lt hs
    simp; omega
  · obtain ⟨⟨ds', rest'⟩, hs, he⟩ := Option.map_eq_some_iff.1 h
    cases he
    have := length_scanSigned_lt hs
    simp; omega
  · cases h; exact Nat.le_refl _

theorem length_scanUnsigned_lt {cs ds rest : List Char} (h : scanUnsigned cs = some (ds, rest)) :
    rest.length < cs.length := by
  unfold scanUnsigned at h
  obtain ⟨⟨w, r1⟩, h1, h⟩ := Option.bind_eq_some_iff.1 h
  obtain ⟨⟨p, r2⟩, h2, h⟩ := Option.bind_eq_some_iff.1 h
  obtain ⟨⟨e, r3⟩, h3, h⟩ := Option.bind_eq_some_iff.1 h
  cases h
  have := length_scanWhole_lt h1
  have := length_scanPlaces_le h2
  have := length_scanExponent_le h3
  omega

theorem length_scanNumber_lt {cs ds rest : List Char} (h : scanNumber cs = some (ds, rest)) :
    rest.length < cs.length := by
  unfold scanNumber at h
  split at h
  · obtain ⟨⟨ds', rest'⟩, hs, he⟩ := Option.map_eq_some_iff.1 h
    cases he
    have := length_scanUnsigned_lt hs
    simp; omega
  · exact length_scanUnsigned_lt h

/-- Every token takes at least one character. -/
theorem length_scan_lt {cs rest : List Char} {t : Token} (h : scan cs = some (t, rest)) :
    rest.length < cs.length := by
  unfold scan at h
  split at h
  case h_7 r =>
    obtain ⟨⟨ps, rest'⟩, hs, he⟩ := Option.map_eq_some_iff.1 h
    cases he
    have := length_scanText_lt _ _ _ hs
    simp; omega
  case h_11 =>
    obtain ⟨⟨ds, rest'⟩, hs, he⟩ := Option.map_eq_some_iff.1 h
    cases he
    exact length_scanNumber_lt hs
  all_goals
    cases h
    simp only [List.length_cons]
    omega

/-- The tokens of a text; `none` if some part of it is no token. -/
def tokenize : List Char → Option (List Token)
  | [] => some []
  | c :: r =>
    if isGap c then tokenize r
    else
      match _h : scan (c :: r) with
      | some (t, rest) => (tokenize rest).map (t :: ·)
      | none => none
termination_by cs => cs.length
decreasing_by
  · simp
  · exact length_scan_lt _h

end Json
end Bindery
