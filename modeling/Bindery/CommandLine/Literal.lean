/-
# Literals

The arguments of a call as they are written on a command line. A literal is read as the first of
these that it can be read as:

| literal | value |
| --- | --- |
| `true`, `false` | a truth value |
| an optional sign and digits, if 64 bits hold the number | an integer |
| a real number | a real number |
| `Type::Name` for an enumerator of an enumeration | the enumerator |
| anything | text |
-/

import Bindery.Call.EnumTable
import Bindery.Decimal.Read

namespace Bindery
namespace Literal

open Text

/-- The integer that a sign and digits write, if 64 bits hold it. -/
def int64? (s : String) : Option Int64 := do
  let (negative, digits) := Binary64.splitSign s.toList
  let n ← readNat? digits
  let i : Int := if negative then -n else n
  if Int64.minValue.toInt ≤ i ∧ i ≤ Int64.maxValue.toInt then some (Int64.ofInt i) else none

/-- Splits at the last `::` of a text that is given backwards. -/
def splitLastBack? (back : List Char) : List Char → Option (List Char × List Char)
  | ':' :: ':' :: r => some (r.reverse, back)
  | c :: r => splitLastBack? (c :: back) r
  | [] => none

/-- The parts of a text before and behind its last `::`. -/
def splitLast? (s : String) : Option (String × String) :=
  (splitLastBack? [] s.toList.reverse).map fun (a, b) => (String.ofList a, String.ofList b)

/-- The enumerator that a literal names. -/
def enumerator? (table : EnumTable) (s : String) : Option EnumValue := do
  let (typeName, name) ← splitLast? s
  table.value? typeName name

/-- The value of a literal. -/
def value (table : EnumTable) (s : String) : Primitive :=
  if s = "true" then .bool true
  else if s = "false" then .bool false
  else match int64? s with
    | some i => .int i
    | none =>
      match Binary64.read? s with
      | some x => .real x
      | none =>
        match enumerator? table s with
        | some v => .enumerator v
        | none => .text s

end Literal
end Bindery
