/-
# Scripted platforms

A platform that acts as written down: for the signature of each artifact, what comes of compiling
it and how its library answers. What is asked of the platform is recorded in order, so that a
session can be rehearsed without a compiler and every call that reaches the outside can be seen.

Compiling an artifact that is not scripted fails. A library is known by its stem, the name of its
file; counts of attempts and of calls are kept for each stem.

| a part says | default |
| --- | --- |
| how often compiling fails, and with what | never |
| what is built | a library |
| which symbols are left out | none |
| the replies to calls, one after the other, the last again and again | an empty reply |
| the replies to reading and the statuses of writing each field | unknown field |
-/

import Bindery.Call.Signature
import Bindery.Native.Platform

namespace Bindery
namespace Script

/-- What a successful compilation leaves behind. -/
inductive Product where
  | library
  /-- A file that is no library. -/
  | junk
  | nothing
  deriving DecidableEq

/-- How compilations fail: with what, and the first how many of them; `none` stands for all. -/
structure Failure where
  diagnostics : String
  times : Option Nat := none

/-- The script of one artifact. -/
structure Part where
  signature : String
  failure : Option Failure := none
  product : Product := .library
  /-- The endings of the symbols that are left out. -/
  omitted : List String := []
  description : Description := ⟨0, none⟩
  replies : List Reply := []
  spelling : Option (List UInt8) := none
  fields : List (String × Reply) := []
  writes : List (String × Int32) := []

/-- What was asked of a platform. -/
inductive Event where
  | prepare (flags : List String)
  | compile (job : Job) (source : String) (signature : Option String)
  | probe (signature : String)
  | invoke (signature : String) (args : List Raw)
  | get (field className : String) (ptr : Address)
  | set (field className : String) (ptr : Address) (value : Raw)
  | release (className : String) (ptr : Address)

/-- How far a rehearsal has come. -/
structure Stage where
  /-- What was asked so far, first to last. -/
  events : List Event := []
  /-- The stems compiled so far. -/
  attempts : List String := []
  /-- The stems called so far. -/
  calls : List String := []

end Script

/-- The parts of all artifacts by stem, and how the other things outside act. -/
structure Script where
  parts : List (String × Script.Part) := []
  rows : List TableRow := []
  /-- What preparing a build directory fails with. -/
  unprepared : Option String := none

namespace Script

/-- The stem and the part of an artifact. -/
def entry (part : Part) : String × Part := (Key.hashOf part.signature, part)

/-- The part of the enumeration table. -/
def enumPart (failure : Option Failure) : String × Part :=
  (Source.enumStem, { signature := Source.enumStem, failure })

/-- What classes are registered under begins so. -/
def classMark : String := "class "

/-- The class that a part is for. -/
def Part.class? (part : Part) : Option String :=
  (Text.afterStart? classMark.toList part.signature.toList).map String.ofList

/-- The name that a part has in events on objects. -/
def Part.className (part : Part) : String := part.class?.getD part.signature

/-- The part of a stem. -/
def part? (s : Script) (stem : String) : Option Part := (s.parts.find? (·.1 == stem)).map (·.2)

/-- The part of a library; one that is not scripted does nothing. -/
def partOf (s : Script) (lib : String) : Part := (s.part? lib).getD { signature := lib }

/-- The endings of the symbols of a library. -/
def endings (part : Part) : List String :=
  let all := if part.signature = Source.enumStem then ["_count", "_entries"]
    else if part.class?.isSome then ["_drop", "_get", "_set", "_cpp_type"]
    else ["", "_probe"]
  all.filter fun e => !part.omitted.contains e

/-- Records what is asked. -/
def ask (e : Event) : StateM Stage Unit := modify fun st => { st with events := st.events ++ [e] }

/-- The diagnostics with which an attempt to compile fails, after so many attempts. -/
def Part.failure? (part : Part) (attempts : Nat) : Option String :=
  part.failure.bind fun f => if f.times.all (attempts < ·) then some f.diagnostics else none

/-- The diagnostics for an artifact that is not scripted. -/
def unscripted : String := "error: unscripted artifact"

/-- The reply to a call, after so many calls. -/
def reply (replies : List Reply) (calls : Nat) : Reply :=
  ((replies[calls]?).or replies.getLast?).getD {}

/-- The file that a compilation leaves behind. -/
def Product.file? (stem : String) : Product → Option (File String)
  | library => some (.library stem)
  | junk => some (.bytes (Text.encode "junk"))
  | nothing => none

/-- The stem of a file. -/
def stemOf (artifact : String) : String :=
  String.ofList ((Text.beforeEnd? ".so".toList artifact.toList).getD artifact.toList)

/-- Makes a build directory ready. -/
def prepare (s : Script) (_dir : String) (flags : List String) :
    StateM (World Stage String) (Except BuildError Unit) := do
  World.act (ask (.prepare flags))
  match s.unprepared with
  | some diagnostics => return .error ⟨"Makefile", diagnostics⟩
  | none => return .ok ()

/-- Compiles. -/
def compile (s : Script) (job : Job) : StateM (World Stage String) Compiled := do
  let stem := stemOf job.target
  let part := s.part? stem
  let w ← get
  let source := Text.lenient ((w.files.read? job.source).getD [])
  let attempts := w.outside.attempts.count stem
  World.act (ask (.compile job source (part.map (·.signature))))
  World.act (modify fun st => { st with attempts := stem :: st.attempts })
  match part with
  | none => return ⟨.error ⟨job.target, unscripted⟩, 0⟩
  | some part =>
    match part.failure? attempts with
    | some diagnostics => return ⟨.error ⟨job.target, diagnostics⟩, 0⟩
    | none =>
      match part.product.file? stem with
      | some file => modify fun w => { w with files := w.files.put job.output file }
      | none => pure ()
      return ⟨.ok job.output, 0⟩

/-- Calls a library. -/
def invoke (s : Script) (lib : String) (args : List Raw) : StateM Stage Reply := do
  let part := s.partOf lib
  ask (.invoke part.signature args)
  let calls := (← get).calls.count lib
  modify fun st => { st with calls := lib :: st.calls }
  return reply part.replies calls

/-- The status or reply of a field that is not scripted. -/
def noField : Reply := { status := -1 }

/-- The platform that acts by a script. -/
def platform (s : Script) : Platform Stage String where
  prepare := s.prepare
  compile := s.compile
  hasSymbol := fun lib symbol => (endings (s.partOf lib)).any fun e => symbol == lib ++ e
  probe := fun lib => do
    ask (.probe (s.partOf lib).signature)
    return (s.partOf lib).description
  invoke := s.invoke
  spelling := fun lib => (s.partOf lib).spelling
  get := fun lib ptr field => do
    let part := s.partOf lib
    ask (.get field part.className ptr)
    return ((part.fields.find? (·.1 == field)).map (·.2)).getD noField
  set := fun lib ptr field value => do
    let part := s.partOf lib
    ask (.set field part.className ptr value)
    return ((part.writes.find? (·.1 == field)).map (·.2)).getD noField.status
  release := fun lib ptr => ask (.release (s.partOf lib).className ptr)
  rows := fun _ => s.rows

end Script
end Bindery
