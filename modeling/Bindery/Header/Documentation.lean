/-
# Documentation

The documentation of a declaration is the run of comments directly in front of it, each starting
with `///`, `//!` or `/**`. The run is read backwards from the declaration and ends at a comment of
another kind or at an empty line. From each line of it the comment signs are removed, once each,
and lines that are empty then are left out.
-/

import Bindery.Header.Token

namespace Bindery
namespace Header

open Text

/-- The signs that start a documentation comment. -/
def docSigns : List (List Char) := ["///", "//!", "/**"].map String.toList

/-- How many line ends a stretch holds. -/
def lineEnds (glyphs : List Glyph) : Nat := glyphs.count (some '\n')

/-- The run of documentation comments in front of a declaration. The trivia are given nearest
first, `gap` counts the line ends since the last comment or the declaration, and `run` holds the
comments found so far. -/
def docRun (gap : Nat) (run : List (List Char)) : List Trivia → List (List Char)
  | [] => run
  | .gap gs :: more => docRun (gap + lineEnds gs) run more
  | .comment gs :: more =>
    let text := (readable gs).toList
    if gap < 2 ∧ docSigns.any (·.isPrefixOf text) then docRun 0 (text :: run) more else run

/-- A line of a comment without its signs. -/
def docLine (line : List Char) : List Char :=
  let line := trim line
  let line := (docSigns.findSome? (afterStart? · line)).getD line
  let line := trim ((beforeEnd? ['*', '/'] line).getD line)
  trim ((afterStart? ['*'] line).getD line)

/-- The documentation in front of a declaration. -/
def documentation (lead : List Trivia) : Option String :=
  let lines := (docRun 0 [] lead.reverse).flatMap fun text => (fields (· == '\n') text).map docLine
  match lines.filter (· ≠ []) with
  | [] => none
  | lines => some ("\n".intercalate (lines.map String.ofList))

end Header
end Bindery
