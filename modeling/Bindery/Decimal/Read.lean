/-
# Reading real numbers

A real number is written as an optional sign and then

* `inf`, `infinity` or `nan`, in any mix of cases, or
* digits with at most one point among, before or after them, then optionally `e` or `E`, an
  optional sign and digits.

The value is the nearest real number, so a great exponent gives infinity and a small one zero.
-/

import Bindery.Decimal.Binary64
import Bindery.Text.Digits

namespace Bindery
namespace Binary64

open Text

/-- Splits a leading sign off; `true` stands for minus. -/
def splitSign : List Char → Bool × List Char
  | '-' :: r => (true, r)
  | '+' :: r => (false, r)
  | r => (false, r)

/-- Whether a character is a decimal digit. -/
def isDigit (c : Char) : Bool := (digitValue? c).isSome

/-- The number written by an exponent, sign included. -/
def exponent? (cs : List Char) : Option Int :=
  let (negative, digits) := splitSign cs
  (readNat? digits).map fun n => if negative then -(n : Int) else n

/-- The exponent behind a significand; an empty text is the exponent zero. -/
def exponentPart? : List Char → Option Int
  | [] => some 0
  | c :: r => if c = 'e' ∨ c = 'E' then exponent? r else none

/-- Reads a number without its sign. -/
def readMagnitude? (negative : Bool) (cs : List Char) : Option Binary64 :=
  let whole := cs.takeWhile isDigit
  let rest := cs.dropWhile isDigit
  let (places, rest) := match rest with
    | '.' :: r => (r.takeWhile isDigit, r.dropWhile isDigit)
    | r => ([], r)
  match readNat? (whole ++ places), exponentPart? rest with
  | some digits, some e => some (ofDecimal negative digits (e - places.length))
  | _, _ => none

/-- Reads a real number. -/
def read? (s : String) : Option Binary64 :=
  let (negative, cs) := splitSign s.toList
  match String.ofList (cs.map Char.toLower) with
  | "inf" | "infinity" => some (signed negative infinityBits)
  | "nan" => some (signed negative notNumberBits)
  | _ => readMagnitude? negative cs

end Binary64
end Bindery
