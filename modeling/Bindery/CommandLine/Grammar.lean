/-
# Grammars of command lines

A command line lists options, which start with hyphens, positional arguments, and commands, each
with a grammar of its own. The words of a line are read from left to right:

| word | is |
| --- | --- |
| a command | the end of this grammar's part, unless an option waits for its value |
| `--` | the sign that all further words are positional |
| `--name`, `--name=value` | an option |
| `-n`, `-nvalue`, `-n=value` | options by their letters |
| any other | the value of the option that waits for one, else positional |

Some options and positional arguments take words that start with hyphens. An option that waits for
such a value takes any word, and so does a positional argument that may be repeated, once it has
got one; before that it takes only the words that are no known options.

An option is settled when the next one comes or the line ends; only then it is checked that it has
a value, that the value is acceptable, and that it is not given twice.
-/

import Bindery.Text.Blank

namespace Bindery
namespace CommandLine

/-- What an option is for. -/
inductive OptKind where
  /-- Asks for help instead of anything else. -/
  | help
  /-- Is there or not. -/
  | switch
  /-- Has one value. -/
  | single
  /-- Has a value each time it is given. -/
  | many
  deriving DecidableEq

/-- An option. -/
structure Opt where
  name : String
  letter : Option Char := none
  kind : OptKind
  /-- Its value may start with a hyphen. -/
  hyphens : Bool := false
  accepts : String → Bool := fun _ => true

/-- A positional argument. -/
structure Positional where
  name : String
  many : Bool := false
  /-- It may start with a hyphen. -/
  hyphens : Bool := false
  required : Bool := true
  accepts : String → Bool := fun _ => true

/-- What a part of a command line may hold. -/
structure Grammar where
  options : List Opt := []
  positionals : List Positional := []
  commands : List String := []

/-- Why a command line is not carried out. -/
inductive Refusal where
  | usage | help
  deriving DecidableEq

/-- What was given, by name; a switch has the empty value. -/
abbrev Given := List (String × String)

/-- What the next word may be a value of. -/
inductive Awaited where
  | nothing
  | value (o : Opt)
  | more (p : Positional)

/-- How far a part of a command line is read. -/
structure Reading where
  given : Given := []
  /-- The option that is not settled, with its value if it has come. -/
  pending : Option (Opt × Option String) := none
  awaited : Awaited := .nothing
  /-- The number of the next positional argument. -/
  position : Nat := 0
  /-- All further words are positional. -/
  plain : Bool := false

namespace Reading

/-- Whether an option waits for its value. -/
def waits (r : Reading) : Bool :=
  match r.awaited with
  | .value _ => true
  | _ => false

/-- Whether what is awaited may start with a hyphen. -/
def takesHyphens (r : Reading) : Bool :=
  match r.awaited with
  | .nothing => false
  | .value o => o.hyphens
  | .more p => p.hyphens

/-- Adds an option with a value, if it may have it. -/
def give (r : Reading) (o : Opt) (value : String) : Except Refusal Reading :=
  if !o.accepts value || o.kind ≠ .many && r.given.any (·.1 == o.name) then .error .usage
  else .ok { r with given := r.given ++ [(o.name, value)] }

/-- Settles the option that is not settled. -/
def settle (r : Reading) : Except Refusal Reading :=
  match r.pending with
  | none => .ok r
  | some (_, none) => .error .usage
  | some (o, some value) => { r with pending := none }.give o value

/-- Takes an option, with the value that is attached to it. -/
def option (r : Reading) (o : Opt) (attached : Option String) : Except Refusal Reading :=
  match o.kind, attached with
  | .help, none => do
    let _ ← r.settle
    .error .help
  | .help, some _ => .error .usage
  | .switch, none => do
    let r ← r.settle
    { r with awaited := .nothing }.give o ""
  | .switch, some _ => .error .usage
  | _, some value => do
    let r ← r.settle
    { r with awaited := .nothing }.give o value
  | _, none => do
    let r ← r.settle
    return { r with pending := some (o, none), awaited := .value o }

end Reading

namespace Grammar

/-- Whether the next positional argument may start with a hyphen. -/
def hyphensAt (g : Grammar) (position : Nat) : Bool :=
  (g.positionals[position]?).any (·.hyphens)

/-- Takes a word as a positional argument. -/
def place (g : Grammar) (r : Reading) (word : String) : Except Refusal Reading := do
  match g.positionals[r.position]? with
  | none => throw .usage
  | some p =>
    let r ← r.settle
    if !p.accepts word then throw .usage
    let r := { r with given := r.given ++ [(p.name, word)] }
    return if p.many then { r with awaited := .more p }
      else { r with awaited := .nothing, position := r.position + 1 }

/-- Takes a word that is no option. -/
def value (g : Grammar) (r : Reading) (word : String) : Except Refusal Reading :=
  match r.awaited with
  | .value o => .ok { r with pending := some (o, some word), awaited := .nothing }
  | _ => g.place r word

/-- The option of a letter. -/
def ofLetter? (g : Grammar) (c : Char) : Option Opt := g.options.find? (·.letter == some c)

/-- Takes options by their letters. -/
def letters (g : Grammar) (r : Reading) : List Char → Except Refusal Reading
  | [] => .ok r
  | c :: rest =>
    match g.ofLetter? c with
    | none => .error .usage
    | some o =>
      if o.kind = .help || o.kind = .switch then do
        let r ← r.option o none
        g.letters r rest
      else match rest with
        | [] => r.option o none
        | '=' :: attached => r.option o (some (String.ofList attached))
        | attached => r.option o (some (String.ofList attached))

/-- Takes a word behind two hyphens. -/
def long (g : Grammar) (r : Reading) (word : String) (body : List Char) :
    Except Refusal Reading :=
  let name := String.ofList (body.takeWhile (· ≠ '='))
  let attached := match body.dropWhile (· ≠ '=') with
    | [] => none
    | _ :: value => some (String.ofList value)
  match g.options.find? (·.name == name) with
  | some o => r.option o attached
  | none => if g.hyphensAt r.position then g.value r word else .error .usage

/-- Takes a word behind one hyphen. -/
def short (g : Grammar) (r : Reading) (word : String) (body : List Char) :
    Except Refusal Reading :=
  if g.hyphensAt r.position && body.any (fun c => (g.ofLetter? c).isNone) then g.value r word
  else g.letters r body

/-- Takes a word. -/
def word (g : Grammar) (r : Reading) (word : String) : Except Refusal Reading :=
  if r.plain then g.place r word
  else match word.toList with
    | ['-', '-'] => if r.takesHyphens then g.value r word else .ok { r with plain := true }
    | '-' :: '-' :: body => if r.takesHyphens then g.value r word else g.long r word body
    | '-' :: c :: body => if r.takesHyphens then g.value r word else g.short r word (c :: body)
    | _ => g.value r word

/-- Reads words up to the end or a command; gives the command and the words behind it. -/
def read (g : Grammar) (r : Reading) :
    List String → Except Refusal (Reading × Option (String × List String))
  | [] => .ok (r, none)
  | word :: rest =>
    if !r.plain && !r.waits && g.commands.contains word then .ok (r, some (word, rest))
    else do
      let r ← g.word r word
      g.read r rest

/-- What was given, if nothing is missing. -/
def finish (g : Grammar) (r : Reading) : Except Refusal Given := do
  let r ← r.settle
  if g.positionals.all fun p => !p.required || r.given.any (·.1 == p.name) then return r.given
  else throw .usage

end Grammar

namespace Given

/-- The value of a name. -/
def value? (given : Given) (name : String) : Option String :=
  (given.find? (·.1 == name)).map (·.2)

/-- The values of a name. -/
def values (given : Given) (name : String) : List String :=
  (given.filter (·.1 == name)).map (·.2)

/-- Whether a name was given. -/
def has (given : Given) (name : String) : Bool := given.any (·.1 == name)

end Given
end CommandLine
end Bindery
