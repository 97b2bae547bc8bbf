/-
# Running compiled code

Calls of loaded libraries. A call gives the result that its reply stands for. Reading or writing a
field may find that there is no such field; a field name that holds a NUL is not even asked for.
-/

import Bindery.Store.Cache

namespace Bindery

variable {σ L : Type}

/-- Calls a loaded library. -/
def Artifact.invoke (p : Platform σ L) (a : Artifact L) (args : List Raw) :
    Action σ L CacheError Result := do
  let reply ← Action.ask (p.invoke a.lib args)
  Action.ofExcept .call (Result.ofCall reply.raw reply.status a.hash)

namespace Binding

/-- The name of a field behind its class. -/
def fieldName (b : Binding L) (field : String) : String := b.qualified ++ "." ++ field

/-- The error for code that threw while it used a field. -/
def threw (b : Binding L) (doing field : String) : CacheError :=
  .call (.thrown ("exception while " ++ doing ++ " `" ++ b.fieldName field ++ "`"))

/-- Fails if a field name cannot cross the boundary. -/
def checkName (b : Binding L) (field : String) : Action σ L CacheError Unit :=
  if field.toList.contains '\x00' then throw (.unknownField b.qualified field) else pure ()

/-- Reads a field of the object at an address. -/
def getField (p : Platform σ L) (b : Binding L) (ptr : Address) (field : String) :
    Action σ L CacheError Result := do
  b.checkName field
  let reply ← Action.ask (p.get b.lib ptr field)
  if reply.status = Status.unknownField then throw (.unknownField b.qualified field)
  else if reply.status = Status.thrown then throw (b.threw "reading" field)
  else Action.ofExcept .call (Result.ofCall reply.raw reply.status (b.fieldName field))

/-- Writes a field of the object at an address. -/
def setField (p : Platform σ L) (b : Binding L) (ptr : Address) (field : String) (value : Raw) :
    Action σ L CacheError Unit := do
  b.checkName field
  let status ← Action.ask (p.set b.lib ptr field value)
  if status = Status.ok then return ()
  else if status = Status.unknownField then throw (.unknownField b.qualified field)
  else if status = Status.thrown then throw (b.threw "assigning" field)
  else throw (.call (.status (b.fieldName field) status))

end Binding
end Bindery
