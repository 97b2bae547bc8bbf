/-
# Running the tool

What the tool does and prints for a command line. It runs in a working directory with an
environment; how libraries act and what comes of running a program is left open. Paths are taken
from the working directory, and shown as they were given.

| code | stands for |
| --- | --- |
| 0 | success, or help |
| 1 | a failure, described on the error output |
| 2 | a command line that makes no sense |
-/

import Bindery.Build.Compilation
import Bindery.CommandLine.EnvFile
import Bindery.CommandLine.Invocation
import Bindery.CommandLine.Literal
import Bindery.CommandLine.Report
import Bindery.Session.Setup
import Bindery.Session.Workspace

namespace Bindery
namespace CommandLine

/-- Where the tool runs. -/
structure Host (σ L : Type) where
  dir : String
  env : EnvFile.Variables
  /-- How libraries act. -/
  libraries : Platform σ L
  /-- What comes of running a program. -/
  execute : Command → StateM (World σ L) Outcome

/-- What the tool leaves behind besides files. -/
structure Output where
  code : Nat
  out : String
  err : String
  deriving DecidableEq

/-- What a task prints, and what it fails with afterwards. -/
structure Printed where
  text : String := ""
  failure : Option (List String) := none
  deriving DecidableEq

/-- What a task prints if it fails before it prints anything. -/
def Printed.failed (causes : List String) : Printed := { failure := some causes }

/-- One thing printed behind another, unless that failed. -/
def Printed.andThen (a b : Printed) : Printed :=
  match a.failure with
  | some _ => a
  | none => { b with text := a.text ++ b.text }

/-- The endings of headers. -/
def headerEndings : List String := ["h", "hh", "hpp", "hxx"]

/-- The ending of a file name: what follows its last dot, if something stands before that. -/
def ending? (name : String) : Option String :=
  match Text.fields (· == '.') name.toList with
  | [_] => none
  | [[], _] => none
  | parts => parts.getLast?.map String.ofList

/-- Whether a path is that of a header. -/
def isHeader (path : String) : Bool :=
  ((Path.fileName? path).bind ending?).any headerEndings.contains

/-- Whether a path stands before another or beside it, part by part. -/
def pathLe (a b : String) : Bool :=
  !decide (Text.fields Path.isSeparator b.toList < Text.fields Path.isSeparator a.toList)

section

variable {σ L : Type}

/-- The headers that an input stands for: itself, or all beneath it. -/
def headersOf (files : Files L) (dir input : String) : Except (List String) (List String) :=
  match files.resolve? (Path.join dir input) with
  | some path =>
    if files.isFile path then .ok [input]
    else .ok ((((files.beneath path).filter isHeader).mergeSort pathLe).map (Path.join input))
  | none => .error ["no such header or directory: " ++ input]

/-- The headers that inputs stand for. -/
def collect (files : Files L) (dir : String) (inputs : List String) :
    Except (List String) (List String) :=
  (inputs.mapM (headersOf files dir)).map List.flatten

namespace Host

/-- The absolute path of a path. -/
def place (h : Host σ L) (path : String) : String := Path.normalize (Path.join h.dir path)

/-- How everything outside acts under settings. -/
def platform (h : Host σ L) (s : Settings) : Platform σ L :=
  s.tools.platform s.driver h.execute h.libraries

/-- Opens a session over the output directory. -/
def openSession (h : Host σ L) (s : Settings) :
    StateM (World σ L) (Except (List String) (Session σ L × Cache L)) := do
  let r ← (Session.ofDirectory (h.platform s) (h.place s.outputDir)).run
  return r.mapError fun e => ("opening session in " ++ s.outputDir) :: e.causes

/-- Sets the output directory up for headers. -/
def reflect (h : Host σ L) (s : Settings) (inputs flags : List String) :
    StateM (World σ L) Printed := do
  match collect (← get).files h.dir inputs with
  | .error causes => return .failed causes
  | .ok [] => return { text := Report.lines ["No C++ headers found."] }
  | .ok headers =>
    let paths := headers.map (Path.join h.dir)
    match ← (Setup.run (h.platform s) (h.place s.outputDir) paths flags).run with
    | .error e => return .failed (("reflecting into " ++ s.outputDir) :: e.causes)
    | .ok m => return { text := Report.catalog headers.length m }

end Host

/-- Explicit template arguments as they are spelled; none at all if there are none. -/
def templateList (args : List String) : Option (List TemplateArg) :=
  if args.isEmpty then none else some (args.map .raw)

/-- The signature of a call, from the types of its arguments. -/
def signatureOf (name : String) (types : List String) (space : Option String)
    (templateArgs : List String) (constructor : Bool) : Signature :=
  if constructor then .constructor (Spelling.qualify space name) types
  else .function name space types (templateList templateArgs)

namespace Host

/-- Calls a free function with literals. -/
def call (h : Host σ L) (s : Settings) (name : String) (literals : List String)
    (options : CallOptions) : StateM (World σ L) Printed := do
  match ← h.openSession s with
  | .error causes => return .failed causes
  | .ok (session, cache) =>
    let args := literals.map fun l => Arg.value (.primitive (Literal.value session.enums l))
    let (r, bench) := (session.callFunction name args options).run ⟨cache, ← get⟩
    set bench.world
    match r with
    | .error e => return .failed (("calling `" ++ name ++ "`") :: e.causes)
    | .ok value =>
      Workspace.letGo session.platform [] value
      return { text := Report.lines [value.render, bench.cache.stats.display] }

/-- Lists the artifacts of the output directory. -/
def artifacts (h : Host σ L) (s : Settings) (files : Files L) : Printed :=
  let dir := Path.join s.outputDir buildDir
  let index := Path.join dir Cache.indexFile
  let path := h.place index
  if !(files.isFile path || files.isDirectory path) then
    { text := Report.artifactsTitle ++ Report.noArtifacts dir }
  else match (files.read? path).bind Archive.read? with
    | some entries => { text := Report.artifactsTitle ++ Report.artifacts entries }
    | none =>
      { text := Report.artifactsTitle
        failure := some ["opening " ++ index, "Index error: the index cannot be read"] }

/-- Lists the enumerators that a session knows. -/
def enumerators (h : Host σ L) (s : Settings) : StateM (World σ L) Printed := do
  match ← h.openSession s with
  | .error causes => return .failed causes
  | .ok (session, _) => return { text := Report.enumerators session.enums }

/-- Lists what has been built. -/
def cache (h : Host σ L) (s : Settings) (enums : Bool) : StateM (World σ L) Printed := do
  let listed := h.artifacts s (← get).files
  if enums && listed.failure.isNone then return listed.andThen (← h.enumerators s)
  else return listed

/-- Does what the tool is asked to do. -/
def perform (h : Host σ L) (s : Settings) : Task → StateM (World σ L) Printed
  | .reflect headers flags => h.reflect s headers flags
  | .hash name args space templateArgs constructor =>
    return { text := Report.key (signatureOf name args space templateArgs constructor).key }
  | .call name literals space templateArgs =>
    h.call s name literals { space, templateArgs := templateList templateArgs }
  | .cache enums => h.cache s enums

/-- The name of the environment file. -/
def environmentFile : String := ".env"

/-- The environment with the variables of the environment file, and a warning if that cannot be
read to its end. -/
def environment (h : Host σ L) (files : Files L) : EnvFile.Variables × String :=
  match files.read? (h.place environmentFile) with
  | none => (h.env, "")
  | some content =>
    let (env, error) := EnvFile.load h.env (Text.lenient content)
    (env, match error with
      | some e => Report.lines ["warning: .env: " ++ e.message]
      | none => "")

/-- The settings for an invocation. -/
def settings (env : EnvFile.Variables) (i : Invocation) : Except String Settings :=
  (Settings.ofEnvironment env.get?).map fun s =>
    { s with outputDir := i.output.getD s.outputDir, driver := i.driver.getD s.driver }

/-- The headers that a task names. -/
def headersNamed : Task → List String
  | .reflect headers _ => headers
  | _ => []

/-- The files and directories that running the tool may look at, besides the environment file. -/
def sources (h : Host σ L) (files : Files L) (words : List String) : List String :=
  match parse words with
  | .error _ => []
  | .ok i =>
    match settings (h.environment files).1 i with
    | .error _ => []
    | .ok s =>
      (Path.join s.outputDir Catalog.file :: Path.join s.outputDir buildDir ::
        headersNamed i.task).map h.place

/-- Runs the tool. -/
def run (h : Host σ L) (words : List String) : StateM (World σ L) Output := do
  let (env, warning) := h.environment (← get).files
  match parse words with
  | .error .help => return ⟨0, Report.usage, warning⟩
  | .error .usage => return ⟨2, "", warning ++ Report.usage⟩
  | .ok i =>
    match settings env i with
    | .error message => return ⟨1, "", warning ++ Report.error [message]⟩
    | .ok s =>
      let printed ← h.perform s i.task
      match printed.failure with
      | none => return ⟨0, printed.text, warning⟩
      | some causes => return ⟨1, printed.text, warning ++ Report.error causes⟩

end Host

end
end CommandLine
end Bindery
