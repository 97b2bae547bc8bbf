/-
# Loaded libraries

Three kinds of libraries are loaded, and each is asked for its symbols in a fixed order:

| library | symbols | yields |
| --- | --- | --- |
| of a call | the hash itself, `_probe` | an `Artifact` |
| of a class | `_drop`, `_get`, `_set`, `_cpp_type` | a `Binding` |
| of the enumerations | `_kernel_enums_count`, `_kernel_enums_entries` | rows |

The probe of a call runs once, when its library is loaded.
-/

import Bindery.Call.EnumTable
import Bindery.Native.Platform
import Bindery.Native.Result

namespace Bindery

/-- Why a file could not be loaded. -/
inductive LoadReason where
  /-- The file is missing or no library. -/
  | unloadable
  | symbol (name : String)
  /-- The probe gave a kind that there is not. -/
  | kind (n : Int32)
  deriving DecidableEq

/-- A file that could not be loaded. -/
structure LoadError where
  path : String
  reason : LoadReason
  deriving DecidableEq

/-- The wording of a reason. -/
def LoadReason.message : LoadReason → String
  | unloadable => "not a library"
  | symbol name => "symbol `" ++ name ++ "`"
  | kind n => "unknown probe kind " ++ Text.intText n.toInt

/-- The wording of a load error. -/
def LoadError.message (e : LoadError) : String :=
  "failed to load `" ++ e.path ++ "`: " ++ e.reason.message

/-- What a call returns: nothing, a primitive, or an object. -/
inductive ReturnKind where
  | void | primitive | object
  deriving DecidableEq

/-- The kind that a number stands for in a probe and in an index. -/
def ReturnKind.ofCode? (n : Int32) : Option ReturnKind :=
  if n = 0 then some .void
  else if n = 1 then some .primitive
  else if n = 2 then some .object
  else none

/-- The number of a kind. -/
def ReturnKind.code : ReturnKind → UInt8
  | void => 0
  | primitive => 1
  | object => 2

/-- What a call returns, as the compiler sees it. -/
structure ReturnType where
  kind : ReturnKind
  typeName : String
  deriving DecidableEq

/-- The loaded library of a call. -/
structure Artifact (L : Type) where
  hash : String
  path : String
  returns : ReturnType
  lib : L

/-- The loaded library of a class. -/
structure Binding (L : Type) where
  qualified : String
  hash : String
  /-- The compiler's spelling of the class. -/
  spelling : String
  lib : L

/-- Loading, which may run code outside. -/
abbrev Load (σ L α : Type) := ExceptT LoadError (StateM (World σ L)) α

namespace Load

variable {σ L α : Type}

/-- Lets code outside run. -/
def ask (f : StateM σ α) : Load σ L α := ExceptT.lift (World.act f)

/-- Loads the file at a path, which has to export symbols. -/
def library (p : Platform σ L) (path : String) (symbols : List String) : Load σ L L := do
  match (← get).files.get? path with
  | some (.library lib) =>
    match symbols.find? fun s => !p.hasSymbol lib s with
    | none => return lib
    | some missing => throw ⟨path, .symbol missing⟩
  | _ => throw ⟨path, .unloadable⟩

/-- Loads the library of a call. -/
def artifact (p : Platform σ L) (hash path : String) : Load σ L (Artifact L) := do
  let lib ← library p path [hash, Source.probeSymbol hash]
  let description ← ask (p.probe lib)
  match ReturnKind.ofCode? description.kind with
  | some kind => return ⟨hash, path, ⟨kind, Text.ofC description.typeName⟩, lib⟩
  | none => throw ⟨path, .kind description.kind⟩

/-- Loads the library of a class. -/
def binding (p : Platform σ L) (qualified hash path : String) : Load σ L (Binding L) := do
  let lib ← library p path
    [Source.dropSymbol hash, Source.getSymbol hash, Source.setSymbol hash,
      Source.cppTypeSymbol hash]
  return ⟨qualified, hash, Text.ofC (p.spelling lib), lib⟩

/-- Loads the library of the enumerations and reads its rows. -/
def enumRows (p : Platform σ L) (path : String) : Load σ L (List EnumRow) := do
  let lib ← library p path [Source.enumCount, Source.enumRows]
  return (p.rows lib).map fun r => ⟨Text.ofC r.typeName, Text.ofC r.enumerator, r.value⟩

end Load
end Bindery
