/-
# Casting results

A result becomes a value. A handle is an array view if its type reads as one, and an object
otherwise; either keeps the type that was reported, normalised. Its class is registered first, so
that the object can be given back.

| handle | becomes |
| --- | --- |
| null | void |
| not a pointer, or a pointer that the caller wants to own | owned |
| any other pointer | borrowed |
-/

import Bindery.Session.Basic

namespace Bindery

/-- The value of an enumeration as reported. -/
def EnumTable.reported (table : EnumTable) (typeName : String) (value : Int64) : EnumValue :=
  let name := Spelling.normalize typeName
  ⟨(table.resolve? name).getD name, table.enumerator? name value, value⟩

/-- A value for a handle of a type. -/
def Value.ofHandle {ω : Type} (type : String) (shape : List Nat) (handle : Handle ω) : Value ω :=
  match View.parse type with
  | .ok spec => .view ⟨type, spec, shape, handle⟩
  | .error _ => .object ⟨type, Spelling.bare type, handle⟩

/-- A value whose handle lies inside the object of another, unless it owns an object itself. -/
def Value.inside {ω : Type} (parent : Handle ω) : Value ω → Value ω
  | .object o =>
    .object { o with handle := if o.handle.isOwned then o.handle else .borrowedFrom o.handle.ptr parent }
  | .view v =>
    .view { v with handle := if v.handle.isOwned then v.handle else .borrowedFrom v.handle.ptr parent }
  | other => other

namespace World

variable {σ L : Type}

/-- A serial number that has not been used. -/
def newSerial : StateM (World σ L) Nat := fun w => (w.serial, { w with serial := w.serial + 1 })

end World

namespace Session

variable {σ L : Type}

/-- Casts a handle. -/
def castHandle (s : Session σ L) (h : Returned) (own : Bool) :
    Action σ L CacheError (Value (Binding L)) := do
  if h.ptr = 0 then return .primitive .void
  let name := Spelling.normalize h.typeName
  let binding ← Cache.ensureClass s.platform name
  if !h.isPointer || own then
    let serial ← Action.inWorld World.newSerial
    return .ofHandle name h.extents (.owned serial h.ptr binding)
  else return .ofHandle name h.extents (.borrowed h.ptr)

/-- Casts a result. -/
def cast (s : Session σ L) (result : Result) (own : Bool) :
    Action σ L CacheError (Value (Binding L)) :=
  match result with
  | .void => return .primitive .void
  | .int v => return .primitive (.int v)
  | .real v => return .primitive (.real v)
  | .bool v => return .primitive (.bool v)
  | .text v => return .primitive (.text v)
  | .enumerator typeName v => return .primitive (.enumerator (s.enums.reported typeName v))
  | .handle h => s.castHandle h own

end Session
end Bindery
