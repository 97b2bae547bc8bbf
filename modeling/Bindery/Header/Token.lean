/-
# Tokens of a header

A header is cut into pieces, each of them as long as the table allows, and every character belongs
to exactly one piece:

| piece | starts with | goes to |
| --- | --- | --- |
| gap | a blank, or a backslash before a line end | the last blank |
| comment | `//`, `/*` | the end of the line, `*/` |
| directive | `#` | the end of the line |
| literal | a digit, a quote, a quote behind `L`, `u8`, `R`, … | the end of the number, the closing quote |
| word | a letter, `_`, `$`, any character above ASCII | the last such character or digit |
| mark | any other character | the longest known operator |

Gaps and comments are no tokens: they stand in front of the next token as its `lead`, so that the
text of any stretch of tokens can be given back. Names such as `operator+` become one token. A
character is `none` where the bytes of the header are no text; only comments hold such characters.
-/

import Bindery.Text.Utf8
import Bindery.Text.Blank

namespace Bindery
namespace Header

open Text

/-- A character of a header, or a part of it that is no text. -/
abbrev Glyph := Option Char

/-- A stretch of a header as text; empty if a part of it is no text. -/
def readable (glyphs : List Glyph) : String := ((glyphs.mapM id).map String.ofList).getD ""

/-- The kinds of pieces. -/
inductive PieceKind where
  | gap | comment | word | literal | mark | directive
  deriving DecidableEq

/-- Whether a character can stand in a name. -/
def isWordChar (c : Char) : Bool := c.isAlphanum || c == '_' || c == '$' || c.toNat ≥ 0x80 && !isBlank c

/-- How many characters in `p` come first. -/
def countWhile (p : Char → Bool) : List Glyph → Nat
  | some c :: r => if p c then countWhile p r + 1 else 0
  | _ => 0

/-- The length of the rest of a line; a backslash before the line end joins the next line. -/
def lineLength : List Glyph → Nat
  | [] => 0
  | some '\\' :: some '\r' :: some '\n' :: r => lineLength r + 3
  | some '\\' :: some '\n' :: r => lineLength r + 2
  | some '\n' :: _ => 0
  | _ :: r => lineLength r + 1

/-- The length of the rest of a comment that ends with `*/`. -/
def blockLength : List Glyph → Nat
  | [] => 0
  | some '*' :: some '/' :: _ => 2
  | _ :: r => blockLength r + 1

/-- The length of the rest of a directive: to the end of the line, but comments may span lines, and
a backslash or a slash also takes the character behind it. With `stop`, the directive ends before
the first comment. -/
def directiveLength (stop inside : Bool) : List Glyph → Nat
  | [] => 0
  | [g] => if g = some '\n' ∧ ¬inside then 0 else 1
  | g :: h :: r =>
    if inside then
      if g = some '*' ∧ h = some '/' then directiveLength stop false r + 2
      else directiveLength stop true (h :: r) + 1
    else if g = some '/' ∧ (h = some '*' ∨ h = some '/' ∧ stop) then
      if stop then 0 else directiveLength stop true r + 2
    else if g = some '/' ∧ ¬stop ∨ g = some '\\' ∧ h = some '\n' then directiveLength stop false r + 2
    else if g = some '\\' ∧ h = some '\r' ∧ r.head? = some (some '\n') then
      match r with
      | [] => 2
      | _ :: r => directiveLength stop false r + 3
    else if g = some '\n' then 0
    else directiveLength stop false (h :: r) + 1

/-- The length of the rest of a literal in quotes. -/
def quotedLength (quote : Char) : List Glyph → Nat
  | [] => 0
  | some '\\' :: _ :: r => quotedLength quote r + 2
  | g :: r => if g = some quote then 1 else quotedLength quote r + 1

/-- The length up to and with the first occurrence of `stop`. -/
def lengthThrough (stop : List Glyph) : List Glyph → Nat
  | [] => 0
  | g :: r =>
    if stop.isPrefixOf (g :: r) then stop.length else lengthThrough stop r + 1

/-- The length of the rest of a raw literal behind its first quote. -/
def rawLength (glyphs : List Glyph) : Nat :=
  let delimiter := glyphs.takeWhile (· ≠ some '(')
  lengthThrough (some ')' :: delimiter ++ [some '"']) glyphs

/-- The length of the rest of a number. -/
def numberLength : List Glyph → Nat
  | some c :: some s :: r =>
    if (c == 'e' || c == 'E' || c == 'p' || c == 'P') && (s == '+' || s == '-') then
      numberLength r + 2
    else if isWordChar c || c == '.' || c == '\'' then numberLength (some s :: r) + 1 else 0
  | some c :: r => if isWordChar c || c == '.' || c == '\'' then numberLength r + 1 else 0
  | _ => 0

/-- The operators of more than one character, longer ones first. A closing angle bracket is always
a mark of its own. -/
def longMarks : List (List Char) :=
  ["...", "<=>", "<<=", "::", "->", "<<", "<=", ">=", "==", "!=", "&&", "||", "++", "--", "+=",
    "-=", "*=", "/=", "%=", "&=", "|=", "^=", ".*", "##"].map String.toList

/-- The word that starts a directive. -/
def directiveWord (glyphs : List Glyph) : List Glyph :=
  let rest := glyphs.drop (countWhile isBlank glyphs)
  rest.take (countWhile isWordChar rest)

/-- The length of the rest of a directive, by its word. -/
def directiveRest (glyphs : List Glyph) : Nat :=
  let word := readable (directiveWord glyphs)
  if word ∈ ["else", "endif"] then countWhile isBlank glyphs + word.length
  else directiveLength (word ∈ ["if", "ifdef", "ifndef", "elif", "elifdef", "elifndef"]) false glyphs

/-- The kind of the piece that starts with `g`, and how many characters of `rest` belong to it. -/
def piece (g : Glyph) (rest : List Glyph) : PieceKind × Nat :=
  match g with
  | none => (.mark, 0)
  | some c =>
    if isBlank c then (.gap, countWhile isBlank rest)
    else if c == '/' && rest.head? == some (some '/') then (.comment, lineLength rest)
    else if c == '/' && rest.head? == some (some '*') then
      (.comment, blockLength (rest.drop 1) + 1)
    else if c == '\\' then (.gap, countWhile isBlank rest)
    else if c == '#' then (.directive, directiveRest rest)
    else if c == '"' || c == '\'' then (.literal, quotedLength c rest)
    else if c.isDigit || c == '.' && (rest.head?.join.any (·.isDigit)) then
      (.literal, numberLength rest)
    else if isWordChar c then
      let n := countWhile isWordChar rest
      let word := readable (g :: rest.take n)
      match rest.drop n with
      | some q :: after =>
        if q == '"' && word ∈ ["R", "LR", "uR", "UR", "u8R"] then (.literal, n + 1 + rawLength after)
        else if (q == '"' || q == '\'') && word ∈ ["L", "u", "U", "u8"] then
          (.literal, n + 1 + quotedLength q after)
        else (.word, n)
      | _ => (.word, n)
    else match longMarks.find? fun m => (m.map some).isPrefixOf (g :: rest) with
      | some m => (.mark, m.length - 1)
      | none => (.mark, 0)

/-- The pieces of a header. -/
def pieces : List Glyph → List (PieceKind × List Glyph)
  | [] => []
  | g :: r =>
    let p := piece g r
    (p.1, g :: r.take p.2) :: pieces (r.drop p.2)
termination_by glyphs => glyphs.length
decreasing_by
  simp only [List.length_drop, List.length_cons]
  omega

/-- What stands between tokens. -/
inductive Trivia where
  | gap (glyphs : List Glyph)
  | comment (glyphs : List Glyph)

/-- The characters between tokens. -/
def Trivia.glyphs : Trivia → List Glyph
  | .gap gs => gs
  | .comment gs => gs

/-- The kinds of tokens. A conversion is the word `operator` before a type. -/
inductive TokenKind where
  | word | literal | mark | directive | operatorName | conversion
  deriving DecidableEq

/-- A token with the gaps and comments in front of it, in order. -/
structure Token where
  kind : TokenKind
  glyphs : List Glyph
  lead : List Trivia

namespace Token

/-- The text of a token. -/
def text (t : Token) : String := readable t.glyphs

/-- Whether a token is the mark or the bracket `m`. -/
def isMark (m : String) (t : Token) : Bool := t.kind == .mark && t.text == m

/-- Whether a token is the word `w`. -/
def isWord (w : String) (t : Token) : Bool := t.kind == .word && t.text == w

/-- A token with what stands in front of it. -/
def whole (t : Token) : List Glyph := (t.lead.map Trivia.glyphs).flatten ++ t.glyphs

/-- Two tokens as one, with what stands between them. -/
def join (kind : TokenKind) (t u : Token) : Token := ⟨kind, t.glyphs ++ u.whole, t.lead⟩

end Token

/-- Gives gaps and comments to the tokens behind them; `lead` is what stands before the first
piece. -/
def attach (lead : List Trivia) : List (PieceKind × List Glyph) → List Token
  | [] => []
  | (.gap, gs) :: r => attach (lead ++ [.gap gs]) r
  | (.comment, gs) :: r => attach (lead ++ [.comment gs]) r
  | (.word, gs) :: r => ⟨.word, gs, lead⟩ :: attach [] r
  | (.literal, gs) :: r => ⟨.literal, gs, lead⟩ :: attach [] r
  | (.mark, gs) :: r => ⟨.mark, gs, lead⟩ :: attach [] r
  | (.directive, gs) :: r => ⟨.directive, gs, lead⟩ :: attach [] r

/-- Whether a token is a bracket. -/
def Token.isBracket (t : Token) : Bool :=
  t.kind == .mark && t.text ∈ ["(", ")", "[", "]", "\x7b", "\x7d"]

/-- The name that starts with the word `operator`, and how many of the tokens behind it belong to
it. Without an operator behind it, the word announces a conversion. -/
def operatorName (t : Token) : List Token → Token × Nat
  | a :: b :: r =>
    let two := Token.join .operatorName (t.join .operatorName a) b
    if a.isMark "(" && b.isMark ")" || a.isMark "[" && b.isMark "]" then (two, 2)
    else if a.isMark ">" && (b.isMark ">" || b.isMark ">=") || a.isMark "->" && b.isMark "*" then
      (two, 2)
    else if a.kind == .literal && b.kind == .word then (two, 2)
    else if a.isWord "new" || a.isWord "delete" then
      match r with
      | c :: _ =>
        if b.isMark "[" && c.isMark "]" then (two.join .operatorName c, 3)
        else (t.join .operatorName a, 1)
      | [] => (t.join .operatorName a, 1)
    else if a.kind == .mark && !a.isBracket || a.isWord "co_await" then
      (t.join .operatorName a, 1)
    else (⟨.conversion, t.glyphs, t.lead⟩, 0)
  | _ => (⟨.conversion, t.glyphs, t.lead⟩, 0)

/-- Joins the names of operators into single tokens; the first `skip` tokens are part of one
already. -/
def joinOperators (skip : Nat) : List Token → List Token
  | [] => []
  | t :: r =>
    match skip with
    | n + 1 => joinOperators n r
    | 0 =>
      if t.isWord "operator" then
        let (name, n) := operatorName t r
        name :: joinOperators n r
      else t :: joinOperators 0 r

/-- The tokens of a header. -/
def tokens (bytes : List UInt8) : List Token :=
  joinOperators 0 (attach [] (pieces (Text.decode bytes)))

end Header
end Bindery
