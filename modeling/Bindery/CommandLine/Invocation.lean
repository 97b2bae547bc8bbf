/-
# Invocations

What the tool can be asked to do on a command line:

| command | does |
| --- | --- |
| `reflect HEADERS…` | sets an output directory up for headers |
| `hash NAME` | shows the signature and the key of a call |
| `call FUNCTION ARGS…` | calls a free function |
| `cache` | lists what has been built |

The output directory and the driver can be given before or behind the command; what stands behind
counts.
-/

import Bindery.Build.Settings
import Bindery.CommandLine.Grammar

namespace Bindery
namespace CommandLine

/-- What the tool is asked to do. -/
inductive Task where
  | reflect (headers flags : List String)
  | hash (name : String) (args : List String) (space : Option String) (templateArgs : List String)
    (constructor : Bool)
  | call (function : String) (args : List String) (space : Option String)
    (templateArgs : List String)
  | cache (enums : Bool)
  deriving DecidableEq

/-- A command line as understood. -/
structure Invocation where
  output : Option String
  driver : Option Driver
  task : Task
  deriving DecidableEq

/-- Whether a text can be a path. -/
def isPath (text : String) : Bool := text ≠ ""

/-- The options that all grammars have. -/
def everywhere : List Opt := [
  { name := "help", letter := some 'h', kind := .help },
  { name := "output", letter := some 'o', kind := .single, accepts := isPath },
  { name := "driver", kind := .single, accepts := fun s => (Settings.driver? s).isSome }]

/-- The grammar of the command line up to the command. -/
def topGrammar : Grammar where
  options := everywhere
  commands := ["reflect", "hash", "call", "cache", "help"]

/-- The option of explicit template arguments. -/
def templateOpt : Opt := { name := "template", kind := .many }

/-- The option of a namespace. -/
def spaceOpt : Opt := { name := "namespace", kind := .single }

/-- The grammar of a command. -/
def grammar : String → Grammar
  | "reflect" => {
      options := { name := "flag", kind := .many, hyphens := true } :: everywhere
      positionals := [{ name := "headers", many := true, accepts := isPath }] }
  | "hash" => {
      options := { name := "arg", kind := .many } :: spaceOpt :: templateOpt ::
        { name := "constructor", kind := .switch } :: everywhere
      positionals := [{ name := "name" }] }
  | "call" => {
      options := spaceOpt :: templateOpt :: everywhere
      positionals := [{ name := "function" },
        { name := "args", many := true, hyphens := true, required := false }] }
  | _ => { options := { name := "enums", kind := .switch } :: everywhere }

/-- What a command asks for. -/
def task (command : String) (given : Given) : Task :=
  match command with
  | "reflect" => .reflect (given.values "headers") (given.values "flag")
  | "hash" =>
    .hash ((given.value? "name").getD "") (given.values "arg") (given.value? "namespace")
      (given.values "template") (given.has "constructor")
  | "call" =>
    .call ((given.value? "function").getD "") (given.values "args") (given.value? "namespace")
      (given.values "template")
  | _ => .cache (given.has "enums")

/-- What asking for help on a topic leads to. -/
def helpOn : List String → Refusal
  | [] => .help
  | [topic] => if topGrammar.commands.contains topic then .help else .usage
  | _ => .usage

/-- Reads a command line. -/
def parse (words : List String) : Except Refusal Invocation := do
  let (top, found) ← topGrammar.read {} words
  match found with
  | none => throw .usage
  | some ("help", topic) => throw (helpOn topic)
  | some (command, rest) =>
    let (reading, _) ← (grammar command).read {} rest
    let given ← (grammar command).finish reading
    let above ← topGrammar.finish top
    let value (name : String) := (given.value? name).or (above.value? name)
    return {
      output := value "output"
      driver := (value "driver").bind Settings.driver?
      task := task command given }

end CommandLine
end Bindery
