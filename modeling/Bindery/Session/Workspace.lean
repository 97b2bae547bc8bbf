/-
# Workspaces

The values that a caller keeps, each under a name. A value put under a name that is taken replaces
the one there: it is kept before the old one goes, so an object that both refer to stays. A value
that is not kept goes at once. When a value goes, its object is given back to the library of its
class, unless a kept value still refers to it.
-/

import Bindery.Session.Calls

namespace Bindery

/-- Named values. No two have one name. -/
abbrev Workspace (L : Type) := List (String × Value (Binding L))

namespace Workspace

variable {σ L : Type}

/-- The value of a name. -/
def get? (kept : Workspace L) (name : String) : Option (Value (Binding L)) :=
  (kept.find? (·.1 == name)).map (·.2)

/-- Without the value of a name. -/
def without (kept : Workspace L) (name : String) : Workspace L := kept.filter (·.1 != name)

/-- The handles of the kept values. -/
def handles (kept : Workspace L) : List (Handle (Binding L)) := kept.filterMap (·.2.handle?)

/-- Lets a value go while others are kept. -/
def letGo (p : Platform σ L) (kept : Workspace L) (value : Value (Binding L)) :
    StateM (World σ L) Unit :=
  match value.handle?.bind (·.freed kept.handles) with
  | some (binding, ptr) => World.act (p.release binding.lib ptr)
  | none => pure ()

/-- Lets the value of a name go after the kept values have become `kept`. -/
def letGoOld (p : Platform σ L) (before kept : Workspace L) (name : String) :
    StateM (World σ L) (Workspace L) := do
  if let some old := before.get? name then letGo p kept old
  return kept

/-- Keeps a value under a name. -/
def keep (p : Platform σ L) (kept : Workspace L) (name : String) (value : Value (Binding L)) :
    StateM (World σ L) (Workspace L) :=
  letGoOld p kept ((name, value) :: kept.without name) name

/-- Lets the value of a name go. -/
def drop (p : Platform σ L) (kept : Workspace L) (name : String) :
    StateM (World σ L) (Workspace L) :=
  letGoOld p kept (kept.without name) name

/-- Lets all values go in the order of their names. -/
def dropAll (p : Platform σ L) (kept : Workspace L) : StateM (World σ L) (Workspace L) :=
  ((kept.map (·.1)).mergeSort fun a b => decide (a ≤ b)).foldlM (drop p) kept

end Workspace
end Bindery
