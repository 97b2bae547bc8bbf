/-
# Caches

The cache of a build directory knows which libraries are loaded: those of calls by their hash, and
those of classes by their normalised name. It keeps the index of the directory and counts what it
does. What all sources in one build directory have in common is its context.

A cache at work in a world is a `Bench`. An `Action` works at a bench and may fail; what it has
done by then stays done.
-/

import Bindery.Catalog.Basic
import Bindery.Source.Registration
import Bindery.Store.Archive
import Bindery.Store.Library
import Bindery.Store.Stats

namespace Bindery

/-- What the sources in one build directory have in common. -/
structure Context where
  /-- The headers that every source includes. -/
  includes : List String := []
  flags : List String := []
  /-- The qualified names of the classes that have an accessor header. -/
  reflected : List String := []
  deriving DecidableEq

/-- The context of a catalog. -/
def Context.ofCatalog (m : Catalog) : Context where
  includes := m.includes
  flags := m.flags
  reflected := m.classes.map (·.qualifiedName)

/-- The loaded libraries of a build directory. -/
structure Cache (L : Type) where
  dir : String
  context : Context
  loaded : List (String × Artifact L) := []
  classes : List (String × Binding L) := []
  index : Index := []
  stats : Stats := {}

/-- Why a cache could not answer. -/
inductive CacheError where
  | file (e : FileError)
  | load (e : LoadError)
  | build (e : BuildError)
  | emit (e : Source.EmitError)
  | call (e : CallError)
  | unknownField (className field : String)
  deriving DecidableEq

/-- The wording of a cache error. -/
def CacheError.message : CacheError → String
  | file e => "I/O error: " ++ e.message
  | load e => e.message
  | build e => e.message
  | emit e => e.message
  | call e => e.message
  | unknownField className field =>
    "`" ++ className ++ "` has no accessible field `" ++ field ++ "`"

namespace Cache

variable {L : Type}

/-- The path of the library with a stem. -/
def artifactPath (c : Cache L) (stem : String) : String :=
  Path.join c.dir (Source.artifactFile stem)

/-- The path of the source with a stem. -/
def sourcePath (c : Cache L) (stem : String) : String := Path.join c.dir (Source.sourceFile stem)

/-- The file that holds the index of a build directory. -/
def indexFile : String := "index.rkyv"

/-- The path of the index. -/
def indexPath (c : Cache L) : String := Path.join c.dir indexFile

/-- The loaded library of a call. -/
def loaded? (c : Cache L) (hash : String) : Option (Artifact L) :=
  (c.loaded.find? (·.1 == hash)).map (·.2)

/-- The loaded library of a class, by its normalised name. -/
def class? (c : Cache L) (qualified : String) : Option (Binding L) :=
  (c.classes.find? (·.1 == qualified)).map (·.2)

/-- The compilation of the source with a stem. -/
def job (c : Cache L) (stem : String) : Job :=
  ⟨c.dir, c.sourcePath stem, Source.artifactFile stem, c.context.flags⟩

end Cache

/-- A cache and the world it works in. -/
structure Bench (σ L : Type) where
  cache : Cache L
  world : World σ L

/-- Something done at a bench, which may fail. -/
abbrev Action (σ L ε α : Type) := ExceptT ε (StateM (Bench σ L)) α

namespace Action

variable {σ L ε α : Type}

/-- Does something in the world. -/
def inWorld (f : StateM (World σ L) α) : Action σ L ε α :=
  ExceptT.lift fun b => let (a, world) := f b.world; (a, { b with world })

/-- Lets code outside run. -/
def ask (f : StateM σ α) : Action σ L ε α := inWorld (World.act f)

/-- Does something to the cache. -/
def onCache (f : Cache L → Cache L) : Action σ L ε Unit :=
  modify fun b => { b with cache := f b.cache }

/-- Counts something. -/
def count (f : Stats → Stats) : Action σ L ε Unit :=
  onCache fun c => { c with stats := f c.stats }

/-- Reads the cache. -/
def cache : Action σ L ε (Cache L) := return (← get).cache

/-- Does something to the files. -/
def onFiles (f : Files L → Except FileError (Files L)) : Action σ L CacheError Unit := do
  let b ← get
  match f b.world.files with
  | .ok files => set { b with world.files := files }
  | .error e => throw (.file e)

/-- Fails as `e`, with an error that `wrap` makes of it. -/
def ofExcept {ε' : Type} (wrap : ε' → ε) : Except ε' α → Action σ L ε α
  | .ok a => pure a
  | .error e => throw (wrap e)

/-- Changes how an action fails. -/
def wrapError {ε' : Type} (wrap : ε → ε') (f : Action σ L ε α) : Action σ L ε' α :=
  ExceptT.adapt wrap f

end Action
end Bindery
