/-
# Handles

A handle is an address and what keeps the object there alive. An allocation is an object that has
to be given back to its owner, once, when nothing refers to it any more.

| handle | refers to | counts as owner |
| --- | --- | --- |
| `owned` | a new allocation | yes |
| `borrowed` | nothing | no |
| `borrowedFrom` a parent | the parent's allocation, if it has one | no |

An allocation is told from all others by its serial number. When a handle goes, its allocation is
given back exactly if no remaining handle refers to it; an allocation at the null pointer is
never given back.
-/

import Bindery.Native.Raw
import Bindery.Text.Digits

namespace Bindery

/-- An object that has to be given back to its owner. -/
structure Allocation (ω : Type) where
  serial : Nat
  ptr : Address
  owner : ω

/-- An address with what keeps the object there alive. -/
structure Handle (ω : Type) where
  ptr : Address
  anchor : Option (Allocation ω)
  /-- The anchor is that of an enclosing object. -/
  interior : Bool

namespace Handle

variable {ω : Type}

/-- A handle that owns a new allocation. -/
def owned (serial : Nat) (ptr : Address) (owner : ω) : Handle ω :=
  ⟨ptr, some ⟨serial, ptr, owner⟩, false⟩

/-- A handle that keeps nothing alive. -/
def borrowed (ptr : Address) : Handle ω := ⟨ptr, none, false⟩

/-- A handle into the object of another. -/
def borrowedFrom (ptr : Address) (parent : Handle ω) : Handle ω := ⟨ptr, parent.anchor, true⟩

/-- Whether the handle is the owner of its object. -/
def isOwned (h : Handle ω) : Bool := h.anchor.isSome && !h.interior

/-- Whether a handle refers to the allocation with a serial number. -/
def refersTo (h : Handle ω) (serial : Nat) : Bool := h.anchor.any (·.serial == serial)

/-- Whether two handles refer to one allocation. -/
def shares (h other : Handle ω) : Bool := h.anchor.any fun a => other.refersTo a.serial

/-- What is given back when a handle goes and `rest` remains. -/
def freed (h : Handle ω) (rest : List (Handle ω)) : Option (ω × Address) :=
  match h.anchor with
  | some a =>
    if a.ptr = 0 ∨ rest.any (·.refersTo a.serial) then none else some (a.owner, a.ptr)
  | none => none

/-- An address in hexadecimal. -/
def addressText (p : Address) : String := "0x" ++ Text.hexNat p

/-- The description of a handle. -/
def describe (h : Handle ω) : String :=
  "NativeHandle \x7b ptr: " ++ addressText h.ptr ++ ", owned: " ++
    (if h.isOwned then "true" else "false") ++ " \x7d"

end Handle
end Bindery
