/-
# Setting up

An output directory is set up for a set of headers once, and serves all sessions from then on:

| file | holds |
| --- | --- |
| `kernels.json` | the catalog |
| `build/bind_abi.hpp` | the prelude |
| `build/Name.hpp` | for each class, its accessor header |
| `build/_kernel_enums.cpp` | the enumeration table, if there are enumerations; it is compiled |

The headers are found first, and a missing one leaves nothing behind. A header that names several
bases for one class is refused before any accessor header is written.
-/

import Bindery.Build.Headers
import Bindery.Header.Reader
import Bindery.Session.Opening

namespace Bindery

/-- Why an output directory could not be set up. -/
inductive SetupError where
  | file (e : FileError)
  | header (e : Unsupported)
  | build (e : BuildError)

/-- What an error says, and what the errors that it comes from say. -/
def SetupError.causes : SetupError → List String
  | file e => CacheError.causes (.file e)
  | header e => [e.message]
  | build e => [e.message]

namespace Setup

variable {σ L α : Type}

/-- A part of setting up. -/
abbrev Step (σ L α : Type) := ExceptT SetupError (StateM (World σ L)) α

/-- Fails if the file system refuses. -/
def ofFile : Except FileError α → Except SetupError α := Except.mapError .file

/-- The plain path of a header. -/
def resolve (files : Files L) (path : String) : Except SetupError String :=
  match files.resolve? path with
  | some path => .ok path
  | none => .error (.file .missing)

/-- The plain paths of headers, each once. -/
def uniqueHeaders (files : Files L) (paths : List String) : Except SetupError (List String) :=
  (paths.mapM (resolve files)).map Headers.distinct

/-- What headers declare, read one after the other. -/
def reflect (files : Files L) (paths : List String) : Except SetupError Reflection :=
  paths.foldlM (fun before path => do
    let content ← ofFile (files.contents path)
    let found ← (Reflection.ofHeader content).mapError .header
    return before.merge found) {}

/-- The accessor header of a class. -/
def accessorUnit (r : Reflection) (includes : List String) (c : ClassInfo) : Source.Unit :=
  Source.classHeader c.name (r.visibleFields c.name) includes

/-- Writes the accessor headers of all classes. -/
def accessors (r : Reflection) (dir : String) (includes : List String) (files : Files L) :
    Except SetupError (Files L) :=
  r.classes.foldlM (fun files c =>
    ofFile (files.replace (Path.join dir (Source.accessorHeader c.name))
      (Text.encode (accessorUnit r includes c).text))) files

/-- Does something to the files. -/
def onFiles (f : Files L → Except SetupError (Files L)) : Step σ L Unit := do
  let w ← get
  match f w.files with
  | .ok files => set { w with files }
  | .error e => throw e

/-- Goes on unless a build failed. -/
def built (f : StateM (World σ L) (Except BuildError α)) : Step σ L Unit := do
  match ← ExceptT.lift f with
  | .ok _ => return ()
  | .error e => throw (.build e)

/-- Compiles the enumeration table. -/
def enumTable (p : Platform σ L) (r : Reflection) (dir : String) (m : Catalog) : Step σ L Unit := do
  let source := Path.join dir (Source.sourceFile Source.enumStem)
  onFiles fun files =>
    ofFile (files.replace source (Text.encode (Source.enumUnit r.enums m.includes).text))
  built do
    let compiled ← p.compile ⟨dir, source, Source.artifactFile Source.enumStem, m.flags⟩
    return compiled.result

/-- Sets an output directory up for headers. -/
def run (p : Platform σ L) (out : String) (paths flags : List String) : Step σ L Catalog := do
  let dir := Path.join out buildDir
  let paths ← ExceptT.mk (return uniqueHeaders (← get).files paths)
  let includes := Headers.includes paths
  let flags := Headers.includeFlags paths ++ flags
  onFiles fun files =>
    ofFile (files.write (Path.join dir Source.preludeFile) (Text.encode Source.prelude))
  built (p.prepare dir flags)
  let r ← ExceptT.mk (return reflect (← get).files paths)
  onFiles (accessors r dir includes)
  let m := Catalog.ofReflection r includes flags
  onFiles fun files => ofFile (files.write (Path.join out Catalog.file) (Text.encode m.page))
  if !r.enums.isEmpty then enumTable p r dir m
  return m

end Setup
end Bindery
