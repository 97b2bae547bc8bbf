/-
# Pools of handles

The handles that are alive, each under a name, how many of them refer to each allocation, and what
has been given back so far. A handle is counted when it is made and counted off when it goes. When
the count of an allocation comes down to zero, the allocation is given back.

A handle put under a name that is taken replaces the one there: it is in the pool before the old
one goes, so an allocation that both refer to stays.
-/

import Bindery.Native.Handle

namespace Bindery

/-- Named handles. No two have one name. -/
structure Pool (ω : Type) where
  /-- The serial number of the next allocation. -/
  serial : Nat := 0
  live : List (String × Handle ω) := []
  /-- How many handles refer to the allocation with a serial number. -/
  counts : Nat → Nat := fun _ => 0
  /-- What has been given back, first to last. -/
  released : List (ω × Address) := []

namespace Pool

variable {ω : Type}

/-- The handle of a name. -/
def get? (pool : Pool ω) (name : String) : Option (Handle ω) :=
  (pool.live.find? (·.1 == name)).map (·.2)

/-- Without the handle of a name; nothing is given back. -/
def without (pool : Pool ω) (name : String) : List (String × Handle ω) :=
  pool.live.filter (·.1 != name)

/-- With another count for an allocation. -/
def recount (pool : Pool ω) (serial : Nat) (f : Nat → Nat) : Pool ω :=
  { pool with counts := fun s => if s = serial then f (pool.counts s) else pool.counts s }

/-- Counts a handle that is made. -/
def retain (pool : Pool ω) (h : Handle ω) : Pool ω :=
  match h.anchor with
  | some a => pool.recount a.serial (· + 1)
  | none => pool

/-- Counts a handle off that goes; with the last one its allocation is given back, unless that is
at the null pointer. -/
def letGo (pool : Pool ω) (h : Handle ω) : Pool ω :=
  match h.anchor with
  | some a =>
    let pool := pool.recount a.serial (· - 1)
    if pool.counts a.serial = 0 ∧ a.ptr ≠ 0 then
      { pool with released := pool.released ++ [(a.owner, a.ptr)] }
    else pool
  | none => pool

/-- Replaces the handles by `live` and lets the one go that `name` had. -/
def replace (pool : Pool ω) (name : String) (live : List (String × Handle ω)) : Pool ω :=
  match pool.get? name with
  | some old => { pool with live }.letGo old
  | none => { pool with live }

/-- Puts a handle under a name. -/
def put (pool : Pool ω) (name : String) (h : Handle ω) : Pool ω :=
  (pool.retain h).replace name ((name, h) :: pool.without name)

/-- Removes the handle of a name. -/
def drop (pool : Pool ω) (name : String) : Pool ω := pool.replace name (pool.without name)

/-- Puts a handle that owns a new allocation. -/
def putOwned (pool : Pool ω) (name : String) (ptr : Address) (owner : ω) : Pool ω :=
  { pool with serial := pool.serial + 1 }.put name (.owned pool.serial ptr owner)

/-- Puts a handle that keeps nothing alive. -/
def putBorrowed (pool : Pool ω) (name : String) (ptr : Address) : Pool ω :=
  pool.put name (.borrowed ptr)

/-- Puts a handle into the object of another, which has to be there. -/
def putBorrowedFrom (pool : Pool ω) (name : String) (ptr : Address) (parent : String) : Pool ω :=
  match pool.get? parent with
  | some h => pool.put name (.borrowedFrom ptr h)
  | none => pool

/-- The names of the other handles that refer to the allocation of one. -/
def sharers (pool : Pool ω) (name : String) (h : Handle ω) : List String :=
  (pool.live.filter fun e => e.1 != name && h.shares e.2).map (·.1)

end Pool
end Bindery
