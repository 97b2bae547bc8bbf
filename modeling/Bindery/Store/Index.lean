/-
# Index of artifacts

The ledger of a build directory: for every artifact the signature it was built from, its kind and
the type it returns. A hash occurs once. Saving sorts the entries by hash, so that a saved index
can be searched by halving.

| kind | artifact |
| --- | --- |
| 0 | a call that returns nothing |
| 1 | a call that returns a primitive |
| 2 | a call that returns an object |
| 3 | a registered class |
-/

namespace Bindery

/-- What is recorded about an artifact. -/
structure IndexEntry where
  hash : String
  signature : String
  kind : UInt8
  returnType : String
  deriving DecidableEq

namespace IndexEntry

/-- The kind of a registered class. -/
def registration : UInt8 := 3

/-- What an artifact is. -/
def label (kind : UInt8) : String :=
  if kind = 0 then "void"
  else if kind = 1 then "primitive"
  else if kind = 2 then "class"
  else if kind = registration then "registration"
  else "unknown"

end IndexEntry

/-- The entries of an index, in the order in which they came. -/
abbrev Index := List IndexEntry

namespace Index

/-- Puts an entry in the place of the one with its hash, or at the end. -/
def upsert (entries : Index) (e : IndexEntry) : Index :=
  match entries with
  | [] => [e]
  | h :: r => if h.hash = e.hash then e :: r else h :: upsert r e

/-- The entry of a hash. -/
def get? (entries : Index) (hash : String) : Option IndexEntry := entries.find? (·.hash == hash)

/-- Whether an entry may stand before another. -/
def entryLe (a b : IndexEntry) : Bool := decide (a.hash ≤ b.hash)

/-- The entries sorted by hash. -/
def sort (entries : Index) : Index := entries.mergeSort entryLe

/-- Halves `size` entries from `base` on until one is left, and keeps the part that may hold
`hash`. -/
def narrow (entries : Array IndexEntry) (hash : String) (base size : Nat) : Nat :=
  if size ≤ 1 then base
  else
    let half := size / 2
    let isAfter := match entries[base + half]? with
      | some e => decide (hash < e.hash)
      | none => true
    narrow entries hash (if isAfter then base else base + half) (size - half)
termination_by size

/-- Searches sorted entries for a hash. -/
def search? (entries : Index) (hash : String) : Option IndexEntry :=
  let array := entries.toArray
  (array[narrow array hash 0 array.size]?).filter (·.hash == hash)

end Index
end Bindery
