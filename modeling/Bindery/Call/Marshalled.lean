/-
# Marshalled arguments

An argument becomes three things: the type that goes into the call's signature, the type and the
way of passing that the generated wrapper is written for, and the raw value that crosses the
boundary.

| argument | passing | signature | wrapper |
| --- | --- | --- | --- |
| primitive | `value` | `T` | `T` |
| view, object | `reference` | `T` | `T` |
| pointer to a view or object | `pointer` | `T*` | `T` |
| pointer to a primitive | `pointerToValue` | `T*` | `T` |
| characters | `text` | `char *` | `char *` |
-/

import Bindery.Call.Value

namespace Bindery

/-- How a wrapper hands an argument on. -/
inductive Passing where
  | value | reference | pointer | pointerToValue | text
  deriving DecidableEq

/-- The type of an argument in a wrapper, and its passing. -/
structure ArgSpec where
  cppType : String
  passing : Passing
  deriving DecidableEq

/-- One marshalled argument. -/
structure MarshalledArg where
  type : String
  spec : ArgSpec
  raw : Raw
  deriving DecidableEq

/-- Text up to its first NUL is all that crosses the boundary, so it must hold none. -/
def Raw.ofText (s : String) : Except TypeError Raw :=
  if s.toList.contains '\x00' then .error .interiorNul else .ok (.text s)

/-- The raw value of a primitive. -/
def Primitive.raw : Primitive → Except TypeError Raw
  | void => .error .void
  | bool v => .ok (.bool v)
  | int v => .ok (.int v)
  | real v => .ok (.real v)
  | text v => Raw.ofText v
  | enumerator v => .ok (.enumerator v.value)

namespace Arg

variable {ω : Type}

/-- Marshals an argument. -/
def marshal : Arg ω → Except TypeError MarshalledArg
  | owned p => p.raw.map fun raw => ⟨p.cppType, ⟨p.cppType, .value⟩, raw⟩
  | value (.primitive p) => p.raw.map fun raw => ⟨p.cppType, ⟨p.cppType, .value⟩, raw⟩
  | value (.view v) => .ok ⟨v.cppType, ⟨v.cppType, .reference⟩, .handle v.handle.ptr⟩
  | value (.object o) => .ok ⟨o.cppType, ⟨o.cppType, .reference⟩, .handle o.handle.ptr⟩
  | value (.type t) => .error (.typeObject t.cppType)
  | pointer (.primitive p) =>
    p.raw.map fun raw => ⟨p.cppType ++ "*", ⟨p.cppType, .pointerToValue⟩, raw.asPointer⟩
  | pointer (.view v) =>
    .ok ⟨v.cppType ++ "*", ⟨v.cppType, .pointer⟩, (Raw.handle v.handle.ptr).asPointer⟩
  | pointer (.object o) =>
    .ok ⟨o.cppType ++ "*", ⟨o.cppType, .pointer⟩, (Raw.handle o.handle.ptr).asPointer⟩
  | pointer (.type t) => .error (.typeObject t.cppType)
  | chars s => (Raw.ofText s).map fun raw => ⟨charsType, ⟨charsType, .text⟩, raw⟩

end Arg

/-- The arguments of a call, in its order; the three lists have one entry for each. -/
structure Marshalled where
  types : List String := []
  specs : List ArgSpec := []
  raw : List Raw := []
  deriving DecidableEq

namespace Marshalled

variable {ω : Type}

/-- Adds an argument at the end; a failing one adds nothing. -/
def push (m : Marshalled) (arg : Arg ω) : Except TypeError Marshalled :=
  arg.marshal.map fun a => ⟨m.types ++ [a.type], m.specs ++ [a.spec], m.raw ++ [a.raw]⟩

/-- Marshals arguments in order, up to the first that fails. -/
def ofArgs (args : List (Arg ω)) : Except TypeError Marshalled := args.foldlM push {}

/-- The arguments of `m`, then those of `other`. -/
def append (m other : Marshalled) : Marshalled :=
  ⟨m.types ++ other.types, m.specs ++ other.specs, m.raw ++ other.raw⟩

/-- The receiver of a call, then its arguments. -/
def withReceiver (receiver : Value ω) (args : List (Arg ω)) : Except TypeError Marshalled := do
  let first ← push {} (.value receiver)
  let rest ← ofArgs args
  return first.append rest

end Marshalled
end Bindery
