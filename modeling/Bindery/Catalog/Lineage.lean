/-
# Lineages

The lineage of a class is the class and its ancestors, nearest first. A parent is referred to by
a class name or by `Owner.alias`, which stands for the target of that alias of `Owner`. The alias
is looked up along the lineage of `Owner`, so following one reference may follow others.

References may be missing or lead in circles. A lineage is cut where a class name repeats, and a
dotted reference met while it is still being followed leads nowhere. A `Walk` remembers the
references of one lookup, so that each is followed at most once.

A reference that is being followed is one that the catalog writes down, and no reference is
followed inside itself; so following nests no deeper than the catalog has references, which
bounds the recursion.
-/

import Bindery.Catalog.Basic

namespace Bindery

/-- The dotted references met in one lookup. -/
structure Walk where
  /-- Being followed, innermost first. -/
  pending : List String := []
  /-- Followed to their end, latest first. -/
  settled : List (String × Option ClassEntry) := []

namespace Walk

/-- Where a reference led, if it has been followed. -/
def settled? (w : Walk) (reference : String) : Option (Option ClassEntry) :=
  (w.settled.find? (·.1 == reference)).map (·.2)

/-- Starts following a reference. -/
def enter (w : Walk) (reference : String) : Walk :=
  { w with pending := reference :: w.pending }

/-- Ends following the innermost reference. -/
def settle (w : Walk) (reference : String) (found : Option ClassEntry) : Walk :=
  { pending := w.pending.tail, settled := (reference, found) :: w.settled }

end Walk

namespace Catalog

/-- Splits `Owner.alias` at its first dot. -/
def splitAlias? (reference : String) : Option (String × String) :=
  let cs := reference.toList
  match cs.dropWhile (· ≠ '.') with
  | [] => none
  | _ :: rest => some (String.ofList (cs.takeWhile (· ≠ '.')), String.ofList rest)

/-- The references that a catalog writes down: parents and targets of aliases. -/
def references (m : Catalog) : List String :=
  m.classes.flatMap fun c =>
    c.parent.toList ++ c.members.filterMap fun
      | .alias _ target => some target
      | _ => none

/-- A way to follow a reference. -/
abbrev Follow := String → Walk → Option ClassEntry × Walk

/-- The chain of parents from a class on, cut at a name in `seen` or after `n` classes. -/
def chain (follow : Follow) : Nat → List String → Option ClassEntry → Walk → List ClassEntry × Walk
  | n + 1, seen, some c, w =>
    if c.name ∈ seen then ([], w)
    else
      let (next, w) := match c.parent with
        | some p => follow p w
        | none => (none, w)
      let (rest, w) := chain follow n (c.name :: seen) next w
      (c :: rest, w)
  | _, _, _, w => ([], w)

/-- The lineage of a class; names are distinct, so it is no longer than the list of classes. -/
def lineageWith (m : Catalog) (follow : Follow) (name : String) (w : Walk) :
    List ClassEntry × Walk :=
  chain follow m.classes.length [] (m.class? name) w

/-- The first member of a name along a lineage. -/
def firstNamed (classes : List ClassEntry) (name : String) : Option Member :=
  (classes.flatMap (·.members)).find? (·.name? == some name)

/-- Follows a reference, through at most `n` references inside one another. -/
def follow (m : Catalog) : Nat → Follow
  | 0, _, w => (none, w)
  | n + 1, reference, w =>
    match splitAlias? reference with
    | none => (m.class? reference, w)
    | some (owner, aliasName) =>
      match w.settled? reference with
      | some found => (found, w)
      | none =>
        if reference ∈ w.pending then (none, w)
        else
          let (line, w) := m.lineageWith (m.follow n) owner (w.enter reference)
          let (found, w) := match firstNamed line aliasName with
            | some (.alias _ target) => m.follow n target w
            | _ => (none, w)
          (found, w.settle reference found)

/-- Follows a reference of the catalog. -/
def followReference (m : Catalog) : Follow := m.follow (m.references.length + 1)

/-- A class and its ancestors, nearest first. -/
def lineage (m : Catalog) (name : String) : List ClassEntry :=
  (m.lineageWith m.followReference name {}).1

/-- The member of a name that a class declares or inherits. -/
def member? (m : Catalog) (class_ name : String) : Option Member :=
  firstNamed (m.lineage class_) name

/-- Whether a class declares or inherits an operator. -/
def hasOperator (m : Catalog) (class_ : String) (op : Operator) : Bool :=
  (m.lineage class_).any fun c => c.members.contains (.operator op)

/-- The class that an alias of a class stands for. -/
def resolveAlias? (m : Catalog) (class_ name : String) : Option ClassEntry :=
  let (line, w) := m.lineageWith m.followReference class_ {}
  match firstNamed line name with
  | some (.alias _ target) => (m.followReference target w).1
  | _ => none

end Catalog
end Bindery
