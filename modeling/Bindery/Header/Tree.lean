/-
# Bracketed text

Tokens between brackets form a group. Parentheses, square brackets and braces always match in a
header; an angle bracket opens a group only where it can be an argument list, that is behind a
word, with its partner before the next semicolon, no literal right behind the partner and, within
a value, no name there either.

Once groups are formed, a comma or semicolon of a list of trees separates the parts of that list
and nothing else, so everything further is a walk along a list.
-/

import Bindery.Header.Token

namespace Bindery
namespace Header

/-- A token that is no bracket, or a group with its two brackets. -/
inductive Tree where
  | leaf (token : Token)
  | group (left : Token) (inner : List Tree) (right : Token)


namespace Tree

mutual

/-- The characters of a tree, with what stands in front of it. -/
def glyphs : Tree → List Glyph
  | .leaf t => t.whole
  | .group l inner r => l.whole ++ glyphsOf inner ++ r.whole

/-- The characters of a list of trees. -/
def glyphsOf : List Tree → List Glyph
  | [] => []
  | t :: ts => t.glyphs ++ glyphsOf ts

end

/-- The first token of a tree. -/
def first : Tree → Token
  | .leaf t => t
  | .group l _ _ => l

/-- What stands in front of a tree. -/
def lead (t : Tree) : List Trivia := t.first.lead

/-- The text from the first tree of a list to the last. -/
def textOf (trees : List Tree) : String :=
  match trees with
  | [] => ""
  | t :: _ => readable ((glyphsOf trees).drop ((t.lead.map Trivia.glyphs).flatten.length))

/-- Whether a tree is the mark `m`. -/
def isMark (m : String) : Tree → Bool
  | .leaf t => t.isMark m
  | .group .. => false

/-- Whether a tree is the word `w`. -/
def isWord (w : String) : Tree → Bool
  | .leaf t => t.isWord w
  | .group .. => false

/-- Whether a tree is a token of a kind. -/
def isKind (k : TokenKind) : Tree → Bool
  | .leaf t => t.kind == k
  | .group .. => false

/-- The text of a word. -/
def word? : Tree → Option String
  | .leaf t => if t.kind = .word then some t.text else none
  | .group .. => none

/-- Whether a tree is a word of a list. -/
def isOneOf (words : List String) (t : Tree) : Bool := t.word?.any (words.contains ·)

/-- Whether a tree is a group that the bracket `b` opens. -/
def opensWith (b : String) : Tree → Bool
  | .leaf _ => false
  | .group l _ _ => l.isMark b

/-- The trees in a group that the bracket `b` opens. -/
def inside? (b : String) : Tree → Option (List Tree)
  | .leaf _ => none
  | .group l inner _ => if l.isMark b then some inner else none

/-- Whether a tree is an attribute in double square brackets. -/
def isAttribute (t : Tree) : Bool :=
  match t.inside? "[" with
  | some [u] => u.opensWith "["
  | _ => false

end Tree

/-- Brackets still open: each with the trees before it, the last of them first. -/
abbrev Open := List (Token × List Tree)

/-- Gives up open brackets: each is a plain token. -/
def giveUp (opened : Open) (before : List Tree) : List Tree :=
  opened.foldl (fun ts (l, outer) => ts ++ .leaf l :: outer) before

/-- Whether a list, given backwards, ends within a value: behind `=` in a statement that declares
no alias. -/
def endsInValue (before : List Tree) : Bool :=
  let statement := before.takeWhile (!·.isMark ";")
  statement.any (·.isMark "=") && !statement.any (·.isWord "using")

/-- Whether the mark `>` closes a list of arguments whose bracket stands behind `outer`, by what
follows it: no literal, and within a value no name. -/
def closesArguments (outer : List Tree) : List Tree → Bool
  | t :: _ =>
    !t.isKind .literal && !(endsInValue outer && t.isKind .word && !t.isOneOf ["const", "volatile"])
  | [] => true

/-- Groups angle brackets in a list of trees; `before` holds the trees since the last open
bracket, the last of them first. -/
def angles (opened : Open) (before : List Tree) : List Tree → List Tree
  | [] => (giveUp opened before).reverse
  | .group l inner r :: rest => angles opened (.group l inner r :: before) rest
  | .leaf t :: rest =>
    if t.isMark "<" && (before.head?.any (·.isKind .word)) then
      angles ((t, before) :: opened) [] rest
    else if t.isMark ">" then
      match opened with
      | (l, outer) :: more =>
        if closesArguments outer rest then angles more (.group l before.reverse t :: outer) rest
        else angles opened (.leaf t :: before) rest
      | [] => angles [] (.leaf t :: before) rest
    else if t.isMark ";" then angles [] (.leaf t :: giveUp opened before) rest
    else angles opened (.leaf t :: before) rest

/-- Groups the brackets in a list of tokens. -/
def brackets (opened : Open) (before : List Tree) : List Token → List Tree
  | [] => angles [] [] (giveUp opened before).reverse
  | t :: rest =>
    if t.isMark "(" || t.isMark "[" || t.isMark "\x7b" then brackets ((t, before) :: opened) [] rest
    else if t.isMark ")" || t.isMark "]" || t.isMark "\x7d" then
      match opened with
      | (l, outer) :: more => brackets more (.group l (angles [] [] before.reverse) t :: outer) rest
      | [] => brackets [] (.leaf t :: before) rest
    else brackets opened (.leaf t :: before) rest

/-- The trees of a header. -/
def trees (bytes : List UInt8) : List Tree := brackets [] [] (tokens bytes)

/-- The parts of a list between the marks `m`; `part` is the part under way. -/
def partsBy (m : String) (part : List Tree) : List Tree → List (List Tree)
  | [] => [part]
  | t :: rest => if t.isMark m then part :: partsBy m [] rest else partsBy m (part ++ [t]) rest

/-- The parts of a list between its commas. An empty list has none, and a last part that is empty
does not count. -/
def commaParts (trees : List Tree) : List (List Tree) :=
  match (partsBy "," [] trees).reverse with
  | [] :: parts => parts.reverse
  | parts => parts.reverse

/-- The word of a directive, such as `if` or `define`. -/
def directiveOf? : Tree → Option String
  | .leaf t => if t.kind = .directive then some (readable (directiveWord (t.glyphs.drop 1))) else none
  | .group .. => none

/-- Drops what stands between a condition of the preprocessor and its end; `depth` conditions are
open. -/
def unconditional (depth : Nat) : List Tree → List Tree
  | [] => []
  | t :: rest =>
    match directiveOf? t with
    | some w =>
      if w = "if" ∨ w = "ifdef" ∨ w = "ifndef" then unconditional (depth + 1) rest
      else if w = "endif" then unconditional (depth - 1) rest
      else if depth = 0 then t :: unconditional depth rest
      else unconditional depth rest
    | none => if depth = 0 then t :: unconditional depth rest else unconditional depth rest

end Header
end Bindery
