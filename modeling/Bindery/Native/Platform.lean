/-
# Platforms

What lies outside: a compiler, a loader, and the compiled libraries with the code in them. A
platform says how each of them acts on a world, and nothing else is known about it. Libraries are
of an arbitrary type `L`, and `σ` is the state of whatever runs outside.

| a library has | for |
| --- | --- |
| an entry and a probe | each call |
| a way to give back, to read and write fields, and a spelling | each class |
| rows | the enumeration table |

A library exports symbols; asking it for something is sensible only if it exports the symbol.
-/

import Bindery.Build.Toolchain
import Bindery.Host.Files
import Bindery.Native.Raw

namespace Bindery

/-- The files of a machine, what runs outside, and the serial number of the next allocation. -/
structure World (σ L : Type) where
  files : Files L
  outside : σ
  serial : Nat := 0

/-- What a compiled function wrote and returned. -/
structure Reply where
  status : Int32 := 0
  raw : Raw := {}

/-- How a library describes what a call returns. -/
structure Description where
  kind : Int32
  typeName : Option (List UInt8)

/-- A row of an enumeration table as a library holds it. -/
structure TableRow where
  typeName : Option (List UInt8)
  enumerator : Option (List UInt8)
  value : Int64

/-- What came of a compilation: the path of the library, and the time it took. -/
structure Compiled where
  result : Except BuildError String
  nanos : Nat := 0

/-- How everything outside acts. -/
structure Platform (σ L : Type) where
  /-- Makes a build directory ready for compilations with flags. -/
  prepare : String → List String → StateM (World σ L) (Except BuildError Unit)
  compile : Job → StateM (World σ L) Compiled
  /-- Whether a library exports a symbol. -/
  hasSymbol : L → String → Bool
  probe : L → StateM σ Description
  invoke : L → List Raw → StateM σ Reply
  /-- The compiler's spelling of a class. -/
  spelling : L → Option (List UInt8)
  get : L → Address → String → StateM σ Reply
  set : L → Address → String → Raw → StateM σ Int32
  /-- Gives an object back. -/
  release : L → Address → StateM σ Unit
  rows : L → List TableRow

/-- A platform without a compiler and without libraries. -/
def Platform.bare (σ : Type) : Platform σ Empty where
  prepare := fun _ _ => return .ok ()
  compile := fun job => return ⟨.error ⟨job.target, "there is no compiler"⟩, 0⟩
  hasSymbol := nofun
  probe := nofun
  invoke := nofun
  spelling := nofun
  get := nofun
  set := nofun
  release := nofun
  rows := nofun

namespace World

variable {σ L α : Type}

/-- Lets what runs outside act. -/
def act (f : StateM σ α) : StateM (World σ L) α := fun w =>
  let (a, outside) := f w.outside
  (a, { w with outside })

end World
end Bindery
