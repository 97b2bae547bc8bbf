/-
# Sessions

A session answers calls into a library. What it knows does not change: how everything outside
acts, the catalog of the library, and its enumerations. What changes is the bench that it works
at.

A call is made in two steps. From the receiver and the arguments a `Request` is made, which says
what has to be called under which key; this may be refused, and touches nothing. Then the request
is carried out.
-/

import Bindery.Catalog.Lineage
import Bindery.Store.Lookup
import Bindery.Store.Run

namespace Bindery

/-- What a session knows. -/
structure Session (σ L : Type) where
  platform : Platform σ L
  catalog : Catalog
  enums : EnumTable

/-- Why a session refused a call or failed at it. -/
inductive SessionError where
  | type (e : TypeError)
  /-- The class does not declare the operator. -/
  | operator (className : String) (op : Operator)
  /-- Something that exists already cannot be constructed. -/
  | reconstruction (className : String)
  | cache (e : CacheError)
  | unknownMember (className member : String)
  | readOnlyField (className field : String)
  | unknownEnum (typeName enumerator : String)
  /-- Something else stands where an object has to be. -/
  | notObject (found : String)
  | arity (op : Operator) (expected given : Nat)
  deriving DecidableEq

/-- The wording of a session error. -/
def SessionError.message : SessionError → String
  | type e => e.message
  | operator className op =>
    "operator `" ++ op.cppName ++ "` is not supported on `" ++ className ++ "`"
  | reconstruction className =>
    "calling constructor on bound instance of `" ++ className ++ "` is forbidden"
  | cache e => e.message
  | unknownMember className member => "`" ++ className ++ "` has no member `" ++ member ++ "`"
  | readOnlyField className field =>
    "field `" ++ field ++ "` of `" ++ className ++ "` is read-only"
  | unknownEnum typeName enumerator =>
    "`" ++ typeName ++ "` has no enumerator `" ++ enumerator ++ "`"
  | notObject found => "expected a bound instance, got " ++ found
  | arity op expected given =>
    "operator `" ++ op.cppName ++ "` takes " ++ Text.natText expected ++ " argument(s), got " ++
      Text.natText given

/-- What a caller may say about a call. -/
structure CallOptions where
  templateArgs : Option (List TemplateArg) := none
  /-- Counts instead of the namespace in the catalog. -/
  space : Option String := none
  /-- A pointer that the call returns shall be owned. -/
  own : Bool := false
  deriving DecidableEq

/-- How a call is counted. -/
inductive CallKind where
  | constructor | kernel
  deriving DecidableEq

/-- A call that is ready to be made. -/
structure Request where
  key : Key
  kind : CallKind
  target : Source.Target
  args : Marshalled
  own : Bool
  deriving DecidableEq

/-- The source of a request in a context. -/
def Request.source (r : Request) (context : Context) : Except Source.EmitError Source.Unit :=
  Source.wrapper ⟨r.key.hash, r.target, r.args.specs, context.includes⟩

/-- Counts a call. -/
def Stats.call (s : Stats) : CallKind → String → Stats
  | .constructor, signature => s.constructor signature
  | .kernel, signature => s.kernel signature

end Bindery
