/-
# Results of calls

What a call gave, read off its status and the raw value it wrote. A status other than success
decides alone. A raw value with an unknown tag counts as a call that returned its tag as status.

The rank of a handle is kept between 0 and the number of extents there is room for, and an extent
below zero is read as zero.
-/

import Bindery.Native.Raw
import Bindery.Text.Digits

namespace Bindery

/-- A reference to an object that a call returned. -/
structure Returned where
  ptr : Address
  /-- The object belongs to the code that returned a pointer to it. -/
  isPointer : Bool
  /-- The compiler's spelling of the object's type. -/
  typeName : String
  extents : List Nat
  deriving DecidableEq

/-- The result of a call. -/
inductive Result where
  | void
  | int (v : Int64)
  | real (v : Binary64)
  | bool (v : Bool)
  | text (v : String)
  | enumerator (typeName : String) (v : Int64)
  | handle (h : Returned)
  deriving DecidableEq

/-- Why a call gave no result. -/
inductive CallError where
  /-- The called code threw. -/
  | thrown (message : String)
  /-- The number of arguments does not fit. -/
  | count (target : String)
  /-- The status is none that a call may have. -/
  | status (target : String) (code : Int32)
  deriving DecidableEq

/-- The wording of a call error. -/
def CallError.message : CallError → String
  | thrown message => "native exception: " ++ message
  | count target => "argument count mismatch calling `" ++ target ++ "`"
  | status target code =>
    "`" ++ target ++ "` returned unexpected status " ++ Text.intText code.toInt

namespace Status

/-- The call succeeded. -/
def ok : Int32 := 0

/-- The called code threw. -/
def thrown : Int32 := 1

/-- The number of arguments does not fit. -/
def count : Int32 := 2

/-- There is no such field. -/
def unknownField : Int32 := -1

end Status

namespace Result

/-- The extents that a raw value declares. -/
def extents (raw : Raw) : List Nat :=
  (List.range (min raw.rank.toInt.toNat Raw.maxExtents)).map fun k =>
    (raw.extents.getD k 0).toInt.toNat

/-- Reads a raw value. -/
def ofRaw (raw : Raw) (target : String) : Except CallError Result :=
  if raw.tag = Raw.voidTag then .ok .void
  else if raw.tag = Raw.intTag then .ok (.int raw.i)
  else if raw.tag = Raw.realTag then .ok (.real raw.d)
  else if raw.tag = Raw.boolTag then .ok (.bool (raw.i != 0))
  else if raw.tag = Raw.textTag then .ok (.text (Text.ofC raw.s))
  else if raw.tag = Raw.enumTag then .ok (.enumerator (Text.ofC raw.typeName) raw.i)
  else if raw.tag = Raw.handleTag then
    .ok (.handle {
      ptr := raw.p
      isPointer := raw.isPointer != 0
      typeName := Text.ofC raw.typeName
      extents := extents raw })
  else if raw.tag = Raw.errorTag then .error (.thrown (Text.ofC raw.s))
  else .error (.status target raw.tag)

/-- The result of a call of `target` that wrote `raw` and returned `status`. -/
def ofCall (raw : Raw) (status : Int32) (target : String) : Except CallError Result :=
  if status = Status.ok then ofRaw raw target
  else if status = Status.thrown then .error (.thrown (Text.ofC raw.s))
  else if status = Status.count then .error (.count target)
  else .error (.status target status)

end Result
end Bindery
