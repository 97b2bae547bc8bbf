/-
# Enumeration tables

The values of all enumerators of a library, by type and name. A type goes by its normalised name,
or by an unqualified end of it that fits no other type. Types keep the order in which they first
occur, and enumerators that of their declaration.
-/

import Bindery.Call.Value

namespace Bindery

/-- One enumerator as the library reports it. -/
structure EnumRow where
  typeName : String
  enumerator : String
  value : Int64
  deriving DecidableEq

/-- The enumerators of each type. -/
structure EnumTable where
  types : List (String × List (String × Int64)) := []
  deriving DecidableEq

namespace EnumTable

/-- Adds an enumerator to its type, or to a new last type. -/
def addTo (types : List (String × List (String × Int64))) (type name : String) (value : Int64) :
    List (String × List (String × Int64)) :=
  match types with
  | [] => [(type, [(name, value)])]
  | (t, names) :: r =>
    if t = type then (t, names ++ [(name, value)]) :: r else (t, names) :: addTo r type name value

/-- The table of the rows that a library reports. -/
def ofRows (rows : List EnumRow) : EnumTable :=
  ⟨rows.foldl (fun ts r => addTo ts (Spelling.normalize r.typeName) r.enumerator r.value) []⟩

/-- The number of enumerators. -/
def size (table : EnumTable) : Nat :=
  table.types.foldl (fun n t => n + t.2.length) 0

/-- Whether a name ends with `::` and a suffix. -/
def hasSuffix (name suffix : String) : Bool := ("::" ++ suffix).toList.isSuffixOf name.toList

/-- The type that a name stands for, with its enumerators. -/
def find? (table : EnumTable) (name : String) : Option (String × List (String × Int64)) :=
  let name := Spelling.normalize name
  match table.types.find? (·.1 == name) with
  | some t => some t
  | none =>
    match table.types.filter fun t => hasSuffix t.1 name with
    | [only] => some only
    | _ => none

/-- The full name of the type that a name stands for. -/
def resolve? (table : EnumTable) (name : String) : Option String := (table.find? name).map (·.1)

/-- The value of an enumerator. -/
def value? (table : EnumTable) (type name : String) : Option EnumValue := do
  let (type, names) ← table.find? type
  let (_, value) ← names.find? (·.1 == name)
  some ⟨type, some name, value⟩

/-- The first enumerator of a type with a value. -/
def enumerator? (table : EnumTable) (type : String) (value : Int64) : Option String := do
  let (_, names) ← table.find? type
  let (name, _) ← names.find? (·.2 == value)
  some name

/-- Whether a row stands before another or beside it: by type, then by value. -/
def rowLe (a b : EnumRow) : Bool :=
  a.typeName < b.typeName || (a.typeName == b.typeName && a.value ≤ b.value)

/-- All enumerators by type and value; equal values stay in the order of their declaration. -/
def rows (table : EnumTable) : List EnumRow :=
  (table.types.flatMap fun (type, names) => names.map fun (name, v) => ⟨type, name, v⟩).mergeSort
    rowLe

end EnumTable
end Bindery
