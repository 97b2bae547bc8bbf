/-
# Writing JSON

Two layouts of the same tokens. The compact one has no blanks. The spread one puts every element
and every member on a line of its own, indented by two spaces for each open container, and a space
behind each colon; an empty container stays on one line.

In a text the quote, the backslash and the control characters are escaped, five of them with a
letter and the others as `\u00xx`.
-/

import Bindery.Json.Basic
import Bindery.Text.Digits

namespace Bindery
namespace Json

/-- How a character is written in a text. -/
def escapeChar (c : Char) : List Char :=
  match c with
  | '"' => ['\\', '"']
  | '\\' => ['\\', '\\']
  | '\x08' => ['\\', 'b']
  | '\x0c' => ['\\', 'f']
  | '\n' => ['\\', 'n']
  | '\r' => ['\\', 'r']
  | '\t' => ['\\', 't']
  | _ => if c.toNat < 0x20 then '\\' :: 'u' :: (Text.hexPadded 4 c.toNat).toList else [c]

/-- A text between quotes. -/
def quote (s : String) : List Char := '"' :: (s.toList.flatMap escapeChar ++ ['"'])

/-- A text between quotes; one without characters is written as the escape of a lone surrogate. -/
def quote? : Option String → List Char
  | some s => quote s
  | none => "\"\\ud800\"".toList

mutual

/-- A value without blanks. -/
def compact : Json → List Char
  | .null => "null".toList
  | .bool b => if b then "true".toList else "false".toList
  | .number spelling => spelling.toList
  | .text s => quote? s
  | .array [] => ['[', ']']
  | .array (j :: r) => '[' :: (compact j ++ compactItems r ++ [']'])
  | .object [] => ['{', '}']
  | .object ((k, j) :: r) => '{' :: (quote? k ++ ':' :: compact j ++ compactMembers r ++ ['}'])

/-- Further elements, each behind a comma. -/
def compactItems : List Json → List Char
  | [] => []
  | j :: r => ',' :: (compact j ++ compactItems r)

/-- Further members, each behind a comma. -/
def compactMembers : List (Option String × Json) → List Char
  | [] => []
  | (k, j) :: r => ',' :: (quote? k ++ ':' :: compact j ++ compactMembers r)

end

/-- The start of a line inside `depth` containers. -/
def newline (depth : Nat) : List Char := '\n' :: List.replicate (2 * depth) ' '

mutual

/-- A value with one line for each element and member. -/
def spread (depth : Nat) : Json → List Char
  | .null => "null".toList
  | .bool b => if b then "true".toList else "false".toList
  | .number spelling => spelling.toList
  | .text s => quote? s
  | .array [] => ['[', ']']
  | .array (j :: r) =>
    '[' :: (newline (depth + 1) ++ spread (depth + 1) j ++ spreadItems (depth + 1) r ++
      newline depth ++ [']'])
  | .object [] => ['{', '}']
  | .object ((k, j) :: r) =>
    '{' :: (newline (depth + 1) ++ quote? k ++ ':' :: ' ' :: spread (depth + 1) j ++
      spreadMembers (depth + 1) r ++ newline depth ++ ['}'])

/-- Further elements, each behind a comma. -/
def spreadItems (depth : Nat) : List Json → List Char
  | [] => []
  | j :: r => ',' :: (newline depth ++ spread depth j ++ spreadItems depth r)

/-- Further members, each behind a comma. -/
def spreadMembers (depth : Nat) : List (Option String × Json) → List Char
  | [] => []
  | (k, j) :: r =>
    ',' :: (newline depth ++ quote? k ++ ':' :: ' ' :: spread depth j ++ spreadMembers depth r)

end

/-- The text of a value on one line. -/
def line (j : Json) : String := String.ofList (compact j)

/-- The text of a value spread over lines. -/
def page (j : Json) : String := String.ofList (spread 0 j)

end Json
end Bindery
