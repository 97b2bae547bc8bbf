/-
# Scalar types of fixed width

The element types of array views, and the many spellings under which compilers report them. The
data model is LP64: `int` has 32 bits, `long` and `long long` have 64.
-/

import Bindery.Text.Blank

namespace Bindery

/-- An arithmetic type of fixed width. -/
inductive Scalar where
  | int16 | int32 | int64 | uint16 | uint32 | uint64 | float | double
  deriving DecidableEq

namespace Scalar

open Text

/-- All scalar types. -/
def all : List Scalar := [int16, int32, int64, uint16, uint32, uint64, float, double]

/-- The spelling that is written. -/
def cppName : Scalar → String
  | int16 => "int16_t"
  | int32 => "int32_t"
  | int64 => "int64_t"
  | uint16 => "uint16_t"
  | uint32 => "uint32_t"
  | uint64 => "uint64_t"
  | float => "float"
  | double => "double"

/-- The values of an integer type, as the pair of its least and greatest; `none` for the two
floating-point types. -/
def bounds? : Scalar → Option (Int × Int)
  | int16 => some (-0x8000, 0x7FFF)
  | int32 => some (-0x80000000, 0x7FFFFFFF)
  | int64 => some (-0x8000000000000000, 0x7FFFFFFFFFFFFFFF)
  | uint16 => some (0, 0xFFFF)
  | uint32 => some (0, 0xFFFFFFFF)
  | uint64 => some (0, 0xFFFFFFFFFFFFFFFF)
  | float => none
  | double => none

/-- The type named by words without `signed` and `unsigned`. -/
def ofCore? (unsigned : Bool) (core : List String) : Option Scalar :=
  match unsigned, " ".intercalate core with
  | false, "int16_t" | false, "short" => some int16
  | false, "int32_t" | false, "int" => some int32
  | false, "int64_t" | false, "long" | false, "long long" => some int64
  | false, "uint16_t" | true, "short" => some uint16
  | false, "uint32_t" | true, "int" | true, "" => some uint32
  | false, "uint64_t" | false, "size_t" | true, "long" | true, "long long" => some uint64
  | false, "float" => some float
  | false, "double" => some double
  | _, _ => none

/-- Reads a spelling such as `long int`, `unsigned long` or `std::int64_t`. -/
def ofSpelling? (spelling : String) : Option Scalar :=
  let plain := trim spelling.toList
  let plain := (afterStart? "std::".toList plain).getD plain
  let words := (words plain).map String.ofList
  let core := words.filter fun w => w ≠ "unsigned" ∧ w ≠ "signed"
  let core := if core.length > 1 then core.filter (· ≠ "int") else core
  ofCore? (words.contains "unsigned") core

end Scalar
end Bindery
