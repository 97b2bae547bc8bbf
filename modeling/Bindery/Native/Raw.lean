/-
# Raw values

One record crosses the boundary to compiled code, in both directions. Its tag tells which parts
count:

| tag | meaning | parts |
| --- | --- | --- |
| 0 | void | |
| 1 | integer | `i` |
| 2 | real | `d` |
| 3 | truth value | `i`, true unless zero |
| 4 | text | `s` |
| 5 | handle | `p`, `isPointer`, `typeName`, `rank`, `extents` |
| 6 | enumerator | `i`, `typeName` |
| 7 | error | `s` |

A text is the memory from a pointer on, and `none` for a null pointer. A call also has a status:
0 on success, 1 when the code threw, 2 when the number of arguments was wrong, and -1 when a field
is unknown.
-/

import Bindery.Decimal.Binary64
import Bindery.Text.Utf8

namespace Bindery

/-- A machine address; zero is the null pointer. -/
abbrev Address := Nat

/-- A value that crosses the boundary. -/
structure Raw where
  tag : Int32 := 0
  isPointer : Int32 := 0
  i : Int64 := 0
  d : Binary64 := .zero
  s : Option (List UInt8) := none
  p : Address := 0
  typeName : Option (List UInt8) := none
  rank : Int32 := 0
  extents : List Int64 := []
  deriving DecidableEq

namespace Raw

/-- The tag of a value that is none. -/
def voidTag : Int32 := 0

/-- The tag of an integer. -/
def intTag : Int32 := 1

/-- The tag of a real number. -/
def realTag : Int32 := 2

/-- The tag of a truth value. -/
def boolTag : Int32 := 3

/-- The tag of a text. -/
def textTag : Int32 := 4

/-- The tag of an object. -/
def handleTag : Int32 := 5

/-- The tag of an enumerator. -/
def enumTag : Int32 := 6

/-- The tag of an error. -/
def errorTag : Int32 := 7

/-- The number of extents there is room for. -/
def maxExtents : Nat := 8

/-- An integer. -/
def int (v : Int64) : Raw := { tag := intTag, i := v }

/-- A real number. -/
def real (v : Binary64) : Raw := { tag := realTag, d := v }

/-- A truth value. -/
def bool (v : Bool) : Raw := { tag := boolTag, i := if v then 1 else 0 }

/-- The value of an enumerator. -/
def enumerator (v : Int64) : Raw := { tag := enumTag, i := v }

/-- A text. -/
def text (s : String) : Raw := { tag := textTag, s := some (Text.encode s) }

/-- An object at an address. -/
def handle (p : Address) : Raw := { tag := handleTag, p }

/-- The same value, marked as passed by pointer. -/
def asPointer (r : Raw) : Raw := { r with isPointer := 1 }

end Raw
end Bindery
