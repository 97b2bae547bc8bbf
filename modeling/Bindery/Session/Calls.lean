/-
# Calls

What can be asked of a session. Calls and constructions are requests that are carried out; fields
are read and written through the registration of their class, and only if the catalog has them.
A class, a view type or an alias is a type object, without an object of it.
-/

import Bindery.Session.Cast
import Bindery.Session.Request

namespace Bindery
namespace Session

variable {σ L : Type}

/-- The values of a session. -/
abbrev Val (L : Type) := Value (Binding L)

/-- Something asked of a session. -/
abbrev Ask (σ L α : Type) := Action σ L SessionError α

/-- Carries out a request. -/
def perform (s : Session σ L) (r : Request) : Action σ L CacheError (Val L) := do
  let artifact ← Cache.lookup s.platform r.key r.source
  Action.count (·.call r.kind r.key.signature)
  let result ← artifact.invoke s.platform r.args.raw
  s.cast result r.own

/-- Carries out a request that may have been refused. -/
def request (s : Session σ L) (r : Except SessionError Request) : Ask σ L (Val L) := do
  let r ← Action.ofExcept id r
  Action.wrapError .cache (s.perform r)

/-- Constructs an object. -/
def construct (s : Session σ L) (target : Val L) (args : List (Arg (Binding L))) :
    Ask σ L (Val L) :=
  s.request (Request.construct s.catalog target args)

/-- Calls a method. -/
def callMethod (s : Session σ L) (receiver : Val L) (name : String)
    (args : List (Arg (Binding L))) (options : CallOptions) : Ask σ L (Val L) :=
  s.request (Request.method s.catalog receiver name args options)

/-- Calls a free function. -/
def callFunction (s : Session σ L) (name : String) (args : List (Arg (Binding L)))
    (options : CallOptions) : Ask σ L (Val L) :=
  s.request (Request.function s.catalog name args options)

/-- Applies an operator. -/
def applyOperator (s : Session σ L) (receiver : Val L) (op : Operator)
    (args : List (Arg (Binding L))) : Ask σ L (Val L) :=
  s.request (Request.operator s.catalog receiver op args)

/-- The type object of a class. A class is registered at once, but a template is not, as long as
its arguments are missing. -/
def classType (s : Session σ L) (name : String) (args : Option (List TemplateArg)) :
    Ask σ L (Val L) := do
  let entry := s.catalog.class? name
  let qualified := templatedName name (entry.bind (·.space)) args
  if !entry.any (·.isTemplate) || args.isSome then
    discard (Action.wrapError .cache (Cache.ensureClass s.platform qualified))
  return .type ⟨qualified, Spelling.bare name⟩

/-- The name of the class of all view types. -/
def viewClass : String := "View"

/-- The type object of an array view. -/
def viewType (spec : View) : Except SessionError (Val L) :=
  (spec.spelling.mapError .type).map fun name => .type ⟨name, viewClass⟩

/-- The object whose field is asked for, and whether the field is read-only. -/
def fieldOwner (m : Catalog) (receiver : Val L) (field : String) :
    Except SessionError (Object (Binding L) × Bool) :=
  match receiver with
  | .object o =>
    match m.member? o.className field with
    | some (.field _ readOnly _) => .ok (o, readOnly)
    | _ => .error (.unknownMember o.className field)
  | other => .error (.notObject other.description)

/-- Reads a field. -/
def getField (s : Session σ L) (receiver : Val L) (field : String) : Ask σ L (Val L) := do
  let (o, _) ← Action.ofExcept id (fieldOwner s.catalog receiver field)
  Action.wrapError .cache do
    let binding ← Cache.ensureClass s.platform o.cppType
    let result ← binding.getField s.platform o.handle.ptr field
    let value ← s.cast result false
    return value.inside o.handle

/-- What is written to a field, if it can be. -/
def fieldValue (m : Catalog) (receiver : Val L) (field : String) (arg : Arg (Binding L)) :
    Except SessionError (Object (Binding L) × Raw) := do
  let (o, readOnly) ← fieldOwner m receiver field
  if readOnly then throw (.readOnlyField o.className field)
  let arg ← arg.marshal.mapError .type
  return (o, arg.raw)

/-- Writes a field. -/
def setField (s : Session σ L) (receiver : Val L) (field : String) (arg : Arg (Binding L)) :
    Ask σ L Unit := do
  let (o, raw) ← Action.ofExcept id (fieldValue s.catalog receiver field arg)
  Action.wrapError .cache do
    let binding ← Cache.ensureClass s.platform o.cppType
    binding.setField s.platform o.handle.ptr field raw

/-- The value of an enumerator. -/
def enumValue (s : Session σ L) (typeName enumerator : String) : Except SessionError (Val L) :=
  match s.enums.value? typeName enumerator with
  | some v => .ok (.primitive (.enumerator v))
  | none => .error (.unknownEnum typeName enumerator)

/-- The type object of a nested alias. -/
def aliasType (s : Session σ L) (className name : String) : Except SessionError (Val L) :=
  match s.catalog.resolveAlias? className name with
  | some c => .ok (.type ⟨c.qualifiedName, c.name⟩)
  | none => .error (.unknownMember className name)

end Session
end Bindery
