/-
# Opening sessions

A session is opened over an output directory, which holds the catalog of a library and the build
directory beside it. The cache of the build directory is opened first, then the enumerations are
loaded.
-/

import Bindery.Catalog.Stored
import Bindery.Session.Basic

namespace Bindery

/-- Why a session could not be opened. -/
inductive OpeningError where
  /-- The catalog is not there. -/
  | file (e : FileError)
  /-- The catalog cannot be read. -/
  | catalog
  | cache (e : CacheError)
  deriving DecidableEq

/-- What an error says, and what the errors that it comes from say. -/
def CacheError.causes : CacheError → List String
  | .file e => [CacheError.message (.file e), e.message]
  | e => [e.message]

/-- What an error says, and what the errors that it comes from say. -/
def SessionError.causes : SessionError → List String
  | .cache e => e.causes
  | e => [e.message]

/-- What an error says, and what the errors that it comes from say. -/
def OpeningError.causes : OpeningError → List String
  | .file e => CacheError.causes (.file e)
  | .catalog => ["the catalog cannot be read"]
  | .cache e => e.causes

/-- The file that holds the catalog in an output directory. -/
def Catalog.file : String := "kernels.json"

/-- The name of the build directory in an output directory. -/
def buildDir : String := "build"

namespace Session

variable {σ L : Type}

/-- Opens a session over a build directory. -/
def ofCatalog (p : Platform σ L) (dir : String) (catalog : Catalog) :
    ExceptT CacheError (StateM (World σ L)) (Session σ L × Cache L) := do
  let cache ← Cache.ofDirectory p dir (.ofCatalog catalog)
  let rows ← Cache.enumRows p cache
  return (⟨p, catalog, .ofRows rows⟩, cache)

/-- The catalog in an output directory. -/
def readCatalog (files : Files L) (dir : String) : Except OpeningError Catalog :=
  match files.read? (Path.join dir Catalog.file) with
  | none => .error (.file .missing)
  | some content =>
    match (Text.strict? content).bind Catalog.read? with
    | some catalog => .ok catalog
    | none => .error .catalog

/-- Opens a session over an output directory. -/
def ofDirectory (p : Platform σ L) (dir : String) :
    ExceptT OpeningError (StateM (World σ L)) (Session σ L × Cache L) := do
  match readCatalog (← get).files dir with
  | .error e => throw e
  | .ok catalog => ExceptT.adapt .cache (ofCatalog p (Path.join dir buildDir) catalog)

end Session
end Bindery
