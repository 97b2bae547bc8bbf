/-
# Binary64

A real number of 64 bits: a sign, an exponent `e` of eleven bits and a fraction `f` of 52 bits.

| exponent field | stands for |
| --- | --- |
| `0` | `f * 2 ^ (-1074)` |
| `e`, from 1 to 2046 | `(2 ^ 52 + f) * 2 ^ (e - 1075)` |
| `2047` | infinity if `f` is zero, otherwise no number |

`ofRatio` rounds a fraction to the nearest of these, a half to the one with the even significand.
-/

namespace Bindery

/-- A real number, kept as its bits. -/
structure Binary64 where
  bits : UInt64
  deriving DecidableEq

namespace Binary64

/-- What the bits stand for, the sign aside. -/
inductive Magnitude where
  | notNumber
  | infinite
  /-- `significand * 2 ^ exponent` -/
  | finite (significand : Nat) (exponent : Int)

/-- The sign bit. -/
def signBit : Nat := 0x8000000000000000

/-- The lowest bit of the exponent field, `2 ^ 52`. -/
def exponentBit : Nat := 0x10000000000000

/-- Whether the sign bit is set. -/
def isNegative (x : Binary64) : Bool := signBit ≤ x.bits.toNat

/-- The exponent field. -/
def exponentField (x : Binary64) : Nat := x.bits.toNat / exponentBit % 2048

/-- The fraction field. -/
def fraction (x : Binary64) : Nat := x.bits.toNat % exponentBit

/-- What the bits stand for, the sign aside. -/
def magnitude (x : Binary64) : Magnitude :=
  if x.exponentField = 2047 then (if x.fraction = 0 then .infinite else .notNumber)
  else if x.exponentField = 0 then .finite x.fraction (-1074)
  else .finite (exponentBit + x.fraction) ((x.exponentField : Int) - 1075)

/-- The number zero. -/
def zero : Binary64 := ⟨0⟩

/-- The bits of infinity. -/
def infinityBits : Nat := 2047 * exponentBit

/-- The bits of a quiet value that is no number. -/
def notNumberBits : Nat := infinityBits + exponentBit / 2

/-- A value from the bits of its magnitude and its sign. -/
def signed (negative : Bool) (magnitudeBits : Nat) : Binary64 :=
  ⟨UInt64.ofNat ((if negative then signBit else 0) + magnitudeBits)⟩

/-- A fraction rounded to the nearest integer, a half to the even one. -/
def roundDiv (num den : Nat) : Nat :=
  let low := num / den
  let twice := 2 * (num % den)
  if twice < den ∨ (twice = den ∧ low % 2 = 0) then low else low + 1

/-- The fraction `num / (den * 2 ^ e)`. -/
def scaled (num den : Nat) (e : Int) : Nat × Nat :=
  (num * Nat.pow 2 (-e).toNat, den * Nat.pow 2 e.toNat)

/-- The exponent at which a positive fraction has a significand of 53 bits, but at least the
least exponent. -/
def exponentOf (num den : Nat) : Int :=
  let guess := (num.log2 : Int) - (den.log2 : Int) - 52
  let (n, d) := scaled num den guess
  max (if n < exponentBit * d then guess - 1 else guess) (-1074)

/-- The bits of the magnitude nearest to `num / den`. A significand of 53 bits carries its top bit
into the exponent field, so the sum is right also where rounding reaches the next power of two. -/
def nearestBits (num den : Nat) : Nat :=
  if num = 0 then 0
  else
    let e := exponentOf num den
    let (n, d) := scaled num den e
    min ((e + 1074).toNat * exponentBit + roundDiv n d) infinityBits

/-- The value nearest to a fraction. -/
def ofRatio (negative : Bool) (num den : Nat) : Binary64 := signed negative (nearestBits num den)

/-- The fraction that a magnitude is, `none` unless it is finite. -/
def ratio? (x : Binary64) : Option (Nat × Nat) :=
  match x.magnitude with
  | .finite m e => some (m * Nat.pow 2 e.toNat, Nat.pow 2 (-e).toNat)
  | _ => none

/-- The value `digits * 10 ^ e` rounded to the nearest. Beyond 400 places either way it is decided
without the powers of ten. -/
def ofDecimal (negative : Bool) (digits : Nat) (e : Int) : Binary64 :=
  let places := (Nat.toDigits 10 digits).length
  if digits = 0 then signed negative 0
  else if e + places > 400 then signed negative infinityBits
  else if e + places < -400 then signed negative 0
  else ofRatio negative (digits * Nat.pow 10 e.toNat) (Nat.pow 10 (-e).toNat)

end Binary64
end Bindery
