/-
# Environment files

A file `.env` in the working directory adds variables to the environment. Each of its entries is
`NAME=value`, with `export` in front if one likes; an entry goes on over line ends inside quotes.
Variables that are set already keep their value.

| in a value | stands for |
| --- | --- |
| `'…'` | the text between the quotes |
| `"…"` | the text between the quotes, with escapes and variables |
| `\n`, `\\`, `\'`, `\"`, `\$`, `\ ` | a line feed, the character itself |
| `$NAME`, `${NAME}` | the value of a variable, empty if there is none |
| a blank | the end of the value; only a comment may follow |

A comment starts with `#` at the beginning of a line or behind a blank. The first entry that cannot
be read ends the reading.
-/

import Bindery.Text.Blank
import Bindery.Text.Digits

namespace Bindery
namespace EnvFile

open Text

/-- Where the search for the end of an entry stands. -/
inductive Mode where
  | plain | blank | escape | weak | weakEscape | strong | strongEscape
  deriving DecidableEq

/-- What a character outside quotes leads to. -/
def Mode.outside (c : Char) : Mode :=
  if c = '\\' then escape else if c = '"' then weak else if c = '\'' then strong else plain

/-- What a character leads to; `none` is the start of a comment. -/
def Mode.next? (mode : Mode) (c : Char) : Option Mode :=
  match mode with
  | plain => some (if isBlank c && c ≠ '\n' && c ≠ '\r' then blank else outside c)
  | blank => if c = '#' then none else some (outside c)
  | escape => some plain
  | weak => some (if c = '\\' then weakEscape else if c = '"' then plain else weak)
  | weakEscape => some weak
  | strong => some (if c = '\\' then strongEscape else if c = '\'' then plain else strong)
  | strongEscape => some strong

/-- Follows the characters of a line: to its end, or to the place of a comment. -/
def Mode.follow (mode : Mode) (place : Nat) : List Char → Mode ⊕ Nat
  | [] => .inl mode
  | c :: r =>
    match mode.next? c with
    | some mode => mode.follow (place + 1) r
    | none => .inr place

/-- The lines of a text, each with its line feed. -/
def lines : List Char → List (List Char)
  | [] => []
  | c :: r =>
    if c = '\n' then [c] :: lines r else consHead c (lines r)

/-- A line without its end. -/
def withoutEnd (line : List Char) : List Char :=
  match beforeEnd? ['\n'] line with
  | some line => (beforeEnd? ['\r'] line).getD line
  | none => line

/-- An entry, or the text that does not come to an end. -/
inductive Piece where
  | entry (cs : List Char)
  | open_ (cs : List Char)

/-- Gathers lines into entries; `before` is the entry under way. -/
def pieces (mode : Mode) (before : List Char) : List (List Char) → List Piece
  | [] => if mode = .plain then [] else [.open_ before]
  | line :: rest =>
    let all := before ++ line
    if (all.dropWhile isBlank).head? = some '#' then .entry [] :: pieces .plain [] rest
    else match mode.follow 0 line with
      | .inr place => .entry (all.take place) :: pieces .plain [] rest
      | .inl .plain => .entry (withoutEnd all) :: pieces .plain [] rest
      | .inl mode => pieces mode all rest

/-- A text that cannot be read, and the place of the first character that does not fit. -/
structure LineError where
  text : List Char
  place : Nat

/-- The wording of a line error. -/
def LineError.message (e : LineError) : String :=
  "Error parsing line: '" ++ String.ofList e.text ++ "', error at line index: " ++
    Text.natText e.place

/-- The name of a variable under way: plain, or between braces. -/
inductive Variable where
  | none
  | plain
  | braced
  deriving DecidableEq

/-- Where the reading of a value stands. -/
structure ValueState where
  strong : Bool := false
  weak : Bool := false
  escaped : Bool := false
  /-- A blank has ended the value. -/
  ended : Bool := false
  variable_ : Variable := .none
  name : List Char := []
  out : List Char := []

/-- Puts the value of the variable under way in its place. -/
def ValueState.insert (st : ValueState) (lookup : String → String) : ValueState :=
  { st with
    variable_ := .none, name := []
    out := st.out ++ (lookup (String.ofList st.name)).toList }

/-- What a backslash and a character stand for. -/
def escape? (c : Char) : Option Char :=
  if c = 'n' then some '\n' else if "\\'\"$ ".toList.contains c then some c else none

/-- Takes a character of the name of a variable. -/
def ValueState.inVariable (st : ValueState) (lookup : String → String) (c : Char) : ValueState :=
  if c.isAlphanum then { st with name := st.name ++ [c] }
  else if st.variable_ = .braced then
    if c = '\x7d' then st.insert lookup else { st with name := st.name ++ [c] }
  else if c = '\x7b' && st.name.isEmpty then { st with variable_ := .braced }
  else
    let st := st.insert lookup
    if c = '$' then { st with variable_ := .plain } else { st with out := st.out ++ [c] }

/-- Takes a character of a value; `none` if it does not fit. -/
def ValueState.take? (st : ValueState) (lookup : String → String) (c : Char) : Option ValueState :=
  if st.ended then if c = ' ' ∨ c = '\t' then some st else none
  else if st.escaped then
    (escape? c).map fun c => { st with escaped := false, out := st.out ++ [c] }
  else if st.strong then
    some (if c = '\'' then { st with strong := false } else { st with out := st.out ++ [c] })
  else if st.variable_ ≠ .none then some (st.inVariable lookup c)
  else if c = '$' then some { st with variable_ := .plain }
  else if c = '"' then some { st with weak := !st.weak }
  else if c = '\\' then some { st with escaped := true }
  else if st.weak then some { st with out := st.out ++ [c] }
  else if c = '\'' then some { st with strong := true }
  else if c = ' ' ∨ c = '\t' then some { st with ended := true }
  else some { st with out := st.out ++ [c] }

/-- Reads a value; `place` counts its characters. The place of a misfit is the error. -/
def readValue (lookup : String → String) (st : ValueState) (place : Nat) :
    List Char → Except Nat (List Char)
  | [] =>
    if st.variable_ = .braced || st.strong || st.weak then .error (place - 1)
    else .ok (st.insert lookup).out
  | c :: r =>
    if st.ended && c = '#' then .ok (st.insert lookup).out
    else match st.take? lookup c with
      | some st => readValue lookup st (place + 1) r
      | none => .error place

/-- Whether a name can start with a character. -/
def startsName (c : Char) : Bool := c.isAlpha || c == '_'

/-- Whether a character can stand in a name. -/
def isNameChar (c : Char) : Bool := c.isAlphanum || c == '_' || c == '.'

/-- Takes the name in front of a text. -/
def name? (cs : List Char) : Option (List Char × List Char) :=
  if cs.head?.any startsName then some (cs.takeWhile isNameChar, cs.dropWhile isNameChar) else none

/-- Takes the name and the equals sign of an entry. What is left behind a misfit is the error. -/
def head (cs : List Char) : Except (List Char) (List Char × List Char) :=
  match name? cs with
  | none => .error cs
  | some (name, rest) =>
    match rest.dropWhile isBlank with
    | '=' :: rest => .ok (name, rest.dropWhile isBlank)
    | rest =>
      if name ≠ "export".toList then .error rest
      else match name? rest with
        | none => .error rest
        | some (name, rest) =>
          match rest.dropWhile isBlank with
          | '=' :: rest => .ok (name, rest.dropWhile isBlank)
          | rest => .error rest

/-- Variables with their values; the first entry of a name counts. -/
abbrev Variables := List (String × String)

/-- The value of a variable. -/
def Variables.get? (vs : Variables) (name : String) : Option String :=
  (vs.find? (·.1 == name)).map (·.2)

/-- Reads an entry. `lookup` gives the values of variables. -/
def readEntry (lookup : String → String) (entry : List Char) :
    Except LineError (Option (String × String)) :=
  let cs := entry.dropWhile isBlank
  if cs.isEmpty || cs.head? = some '#' then .ok none
  else match head cs with
    | .error rest => .error ⟨entry, entry.length - rest.length⟩
    | .ok (name, value) =>
      if value.head? = some '#' then .ok (some (String.ofList name, ""))
      else match readValue lookup {} 0 value with
        | .ok value => .ok (some (String.ofList name, String.ofList value))
        | .error place => .error ⟨value, place⟩

/-- Adds entries to an environment, up to the first that cannot be read. `stored` holds what the
file itself has set, whether or not it counts. -/
def addTo (env stored : Variables) : List Piece → Variables × Option LineError
  | [] => (env, none)
  | .open_ cs :: _ => (env, some ⟨cs, cs.length⟩)
  | .entry cs :: rest =>
    let lookup (name : String) := ((env.get? name).or (stored.get? name)).getD ""
    match readEntry lookup cs with
    | .error e => (env, some e)
    | .ok none => addTo env stored rest
    | .ok (some (name, value)) =>
      let stored := (name, value) :: stored
      if (env.get? name).isSome then addTo env stored rest
      else addTo ((name, value) :: env) stored rest

/-- A text without the mark that may tell its byte order. -/
def withoutMark : List Char → List Char
  | '\uFEFF' :: r => r
  | cs => cs

/-- The environment with the variables of a file. -/
def load (env : Variables) (text : String) : Variables × Option LineError :=
  addTo env [] (pieces .plain [] (lines (withoutMark text.toList)))

end EnvFile
end Bindery
