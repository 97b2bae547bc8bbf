/-
# Spellings of types

A type is known by its spelling. Compilers differ in where they put blanks, so a spelling is
first brought to a normal form: blanks survive only between two words, as one space. The normal
form is decided by the token sequence (`tokens`), in which every punctuation character is a token
of its own and every other maximal run of characters without blanks is one.

From a spelling one reads off:

| function | reads |
| --- | --- |
| `normalize` | the normal form |
| `outline` | what stands outside every `<...>` and `(...)` |
| `bare` | the last name of the outline, without `const`, `*` and `&` |
| `arguments` | the parts between commas that no `<...>` or `(...)` encloses |
| `qualify` | a name behind its namespace |
-/

import Bindery.Text.Blank

namespace Bindery
namespace Spelling

open Text

/-- The characters that are tokens by themselves. -/
def isPunct (c : Char) : Bool :=
  c == '<' || c == '>' || c == ',' || c == '*' || c == '&' || c == ':' || c == '(' || c == ')' ||
    c == '[' || c == ']'

/-- Writes the text without its blanks, but with one space where blanks stood between two words.
`last` is the character written last, `gap` tells whether blanks followed it. -/
def squeeze (last : Option Char) (gap : Bool) : List Char → List Char
  | [] => []
  | c :: r =>
    if isBlank c then squeeze last true r
    else if gap && last.any (!isPunct ·) && !isPunct c then ' ' :: c :: squeeze (some c) false r
    else c :: squeeze (some c) false r

/-- The normal form of a type name. -/
def normalize (name : String) : String := String.ofList (squeeze none false name.toList)

/-- The token sequence of a type name: blanks only separate. `word` is the word under way. -/
def tokensFrom (word : List Char) : List Char → List (List Char)
  | [] => if word = [] then [] else [word]
  | c :: r =>
    if isBlank c then (if word = [] then [] else [word]) ++ tokensFrom [] r
    else if isPunct c then (if word = [] then [] else [word]) ++ [c] :: tokensFrom [] r
    else tokensFrom (word ++ [c]) r

/-- The token sequence of a type name. -/
def tokens (name : String) : List (List Char) := tokensFrom [] name.toList

/-- The nesting depth after a character; it never falls below zero. -/
def nest (depth : Nat) (c : Char) : Nat :=
  if c = '<' ∨ c = '(' then depth + 1 else if c = '>' ∨ c = ')' then depth - 1 else depth

/-- Whether a character opens or closes a group. -/
def isGroup (c : Char) : Bool := c == '<' || c == '(' || c == '>' || c == ')'

/-- The characters that stand outside every group. -/
def outside (depth : Nat) : List Char → List Char
  | [] => []
  | c :: r =>
    if !isGroup c && depth == 0 then c :: outside depth r else outside (nest depth c) r

/-- A type name without its `<...>` and `(...)` groups. -/
def outline (name : String) : String := String.ofList (outside 0 name.toList)

/-- Follows a text and keeps what stands after the last `::` seen, starting with `current`. -/
def afterScope (current : List Char) : List Char → List Char
  | [] => current
  | c :: r => if c = ':' ∧ r.head? = some ':' then afterScope r.tail r else afterScope current r

/-- What stands after the last `::`. -/
def lastSegment (cs : List Char) : List Char := afterScope cs cs

/-- Cuts at every `::`, from left to right. -/
def segments : List Char → List (List Char)
  | ':' :: ':' :: r => [] :: segments r
  | c :: r => consHead c (segments r)
  | [] => [[]]

/-- Cuts at the last `::`. -/
def splitLast? (cs : List Char) : Option (List Char × List Char) :=
  let last := lastSegment cs
  if last.length = cs.length then none else some (cs.take (cs.length - last.length - 2), last)

/-- Whether a character decorates a name at its end. -/
def isDecoration (c : Char) : Bool := c == '*' || c == '&' || isBlank c

/-- The name of a class alone: no template arguments, namespace, `const`, pointer or reference. -/
def bareChars (cs : List Char) : List Char :=
  let plain := dropEndWhile isDecoration (trim (outside 0 cs))
  let plain := (afterStart? "const ".toList plain).getD plain
  trim (lastSegment plain)

/-- The name of a class alone. -/
def bare (name : String) : String := String.ofList (bareChars name.toList)

/-- A name behind its namespace; no namespace and an empty one add nothing. -/
def qualify (space : Option String) (name : String) : String :=
  match space with
  | some ns => if ns = "" then name else ns ++ "::" ++ name
  | none => name

/-- Cuts at the commas at depth zero. -/
def pieces (depth : Nat) : List Char → List (List Char)
  | [] => [[]]
  | c :: r =>
    if c = ',' ∧ depth = 0 then [] :: pieces depth r else consHead c (pieces (nest depth c) r)

/-- The trimmed parts between the commas at depth zero; an empty last part does not count. -/
def arguments (cs : List Char) : List (List Char) :=
  let parts := (pieces 0 cs).map trim
  if parts.getLast? = some [] then parts.dropLast else parts

theorem length_le_of_mem_pieces (cs : List Char) :
    ∀ depth, ∀ w ∈ pieces depth cs, w.length ≤ cs.length := by
  induction cs with
  | nil => intro depth w hw; simp [pieces] at hw; subst hw; simp
  | cons c r ih =>
    intro depth w hw
    unfold pieces at hw
    split at hw
    · rcases List.mem_cons.1 hw with rfl | hw
      · simp
      · exact Nat.le_succ_of_le (ih _ w hw)
    · exact length_le_of_mem_consHead (ih _) w hw

theorem length_le_of_mem_arguments {cs w : List Char} (h : w ∈ arguments cs) :
    w.length ≤ cs.length := by
  have key : w ∈ (pieces 0 cs).map trim := by
    simp only [arguments] at h
    split at h
    · exact List.dropLast_subset _ h
    · exact h
  obtain ⟨v, hv, rfl⟩ := List.mem_map.1 key
  exact Nat.le_trans (length_trim_le v) (length_le_of_mem_pieces cs 0 v hv)

end Spelling
end Bindery
