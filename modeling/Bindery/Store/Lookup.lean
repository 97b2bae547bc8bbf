/-
# Lookup

How a cache comes by a library. One that is loaded is at hand. Otherwise the library in the build
directory is loaded; if there is none, or it cannot be loaded, its source is written, compiled and
the result loaded.

| found | counts as |
| --- | --- |
| loaded | cache hit, for a call |
| in the build directory | disk hit |
| neither | compilation |

Only what could be loaded is remembered and enters the index. A call that returns an object
has the class of the object registered first, so that the object can be owned.
-/

import Bindery.Call.Signature
import Bindery.Store.Cache
import Bindery.Source.Prelude

namespace Bindery
namespace Cache

variable {σ L α : Type}

/-- Opens a build directory: writes the prelude, makes the directory ready and reads its index. An
index that cannot be read counts as empty. -/
def ofDirectory (p : Platform σ L) (dir : String) (context : Context) :
    ExceptT CacheError (StateM (World σ L)) (Cache L) := do
  let w ← get
  match w.files.write (Path.join dir Source.preludeFile) (Text.encode Source.prelude) with
  | .error e => throw (.file e)
  | .ok files =>
    set { w with files }
    match ← ExceptT.lift (p.prepare dir context.flags) with
    | .error e => throw (.build e)
    | .ok () =>
      let c : Cache L := { dir, context }
      let index := ((← get).files.read? c.indexPath).bind Archive.read?
      return { c with index := index.getD [] }

/-- Puts an entry into the index and saves it. A failing save is overlooked. -/
def record (e : IndexEntry) : Action σ L CacheError Unit :=
  modify fun b =>
    let index := (b.cache.index.upsert e).sort
    let files := b.world.files.save b.cache.indexPath (Archive.write index)
    { b with cache.index := index, world.files := files }

/-- Loads what lies at a path, unless there is nothing usable. -/
def reuse (path : String) (load : Load σ L α) : Action σ L CacheError (Option α) := do
  if (← get).world.files.isFile path then
    match ← Action.inWorld load.run with
    | .ok a =>
      Action.count fun s => { s with diskHits := s.diskHits + 1 }
      return some a
    | .error _ => return none
  else return none

/-- Writes a source and compiles it. -/
def build (p : Platform σ L) (stem : String) (source : Source.Unit) :
    Action σ L CacheError String := do
  let c ← Action.cache
  Action.onFiles (·.stage (c.sourcePath stem) (Text.encode source.text))
  Action.onFiles (·.publish (c.sourcePath stem))
  let compiled ← Action.inWorld (p.compile (c.job stem))
  Action.count (·.compile compiled.nanos compiled.result.isOk)
  Action.ofExcept .build compiled.result

/-- Comes by the library with a stem. -/
def obtain (p : Platform σ L) (stem : String) (load : String → Load σ L α)
    (source : Except Source.EmitError Source.Unit) : Action σ L CacheError α := do
  let path := (← Action.cache).artifactPath stem
  match ← reuse path (load path) with
  | some a => return a
  | none =>
    let source ← Action.ofExcept .emit source
    let built ← build p stem source
    Action.ofExcept .load (← Action.inWorld (load built).run)

/-- Drops every leading `::`. -/
def withoutGlobal : List Char → List Char
  | ':' :: ':' :: r => withoutGlobal r
  | cs => cs

/-- The class whose accessor header serves a normalised name, if it has one. -/
def accessor? (context : Context) (qualified : String) : Option String :=
  let outline := withoutGlobal (Text.trim (Spelling.outline qualified).toList)
  if String.ofList outline ∈ context.reflected then some (Spelling.bare qualified) else none

/-- The registration of a class, by its normalised name. -/
def registration (context : Context) (qualified : String) : Source.Unit :=
  Source.classUnit (Key.ofClass qualified).hash qualified (accessor? context qualified)
    context.includes

/-- Comes by the library of a class. -/
def ensureClass (p : Platform σ L) (name : String) : Action σ L CacheError (Binding L) := do
  let qualified := Spelling.normalize name
  let c ← Action.cache
  match c.class? qualified with
  | some binding => return binding
  | none =>
    let key := Key.ofClass qualified
    let binding ← obtain p key.hash (Load.binding p qualified key.hash)
      (.ok (registration c.context qualified))
    Action.count fun s => { s with classRegistrations := s.classRegistrations + 1 }
    record ⟨key.hash, key.signature, IndexEntry.registration, qualified⟩
    Action.onCache fun c => { c with classes := (qualified, binding) :: c.classes }
    return binding

/-- Comes by the library of a call; `emit` gives its source in the context of the cache. -/
def lookup (p : Platform σ L) (key : Key)
    (emit : Context → Except Source.EmitError Source.Unit) :
    Action σ L CacheError (Artifact L) := do
  let c ← Action.cache
  match c.loaded? key.hash with
  | some artifact =>
    Action.count fun s => { s with cacheHits := s.cacheHits + 1 }
    return artifact
  | none =>
    let artifact ← obtain p key.hash (Load.artifact p key.hash) (emit c.context)
    Action.count fun s => { s with returnTypesResolved := s.returnTypesResolved + 1 }
    let returns := artifact.returns
    if returns.kind = .object then discard (ensureClass p returns.typeName)
    record ⟨key.hash, key.signature, returns.kind.code, returns.typeName⟩
    Action.onCache fun c => { c with loaded := (key.hash, artifact) :: c.loaded }
    return artifact

/-- The rows of the enumeration table of a build directory; without a table there are none. -/
def enumRows (p : Platform σ L) (c : Cache L) :
    ExceptT CacheError (StateM (World σ L)) (List EnumRow) := do
  let path := c.artifactPath Source.enumStem
  if (← get).files.isFile path then ExceptT.adapt .load (Load.enumRows p path) else return []

end Cache
end Bindery
