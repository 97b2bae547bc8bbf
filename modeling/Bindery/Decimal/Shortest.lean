/-
# Shortest decimals

The decimal that stands for a binary number is the one with the fewest digits that still rounds to
the number; among several with that many digits it is the nearest, and of two equally near the
greater.

The numbers that round to `m * 2 ^ e` form an interval, from halfway to the value below to halfway
to the value above; its ends belong to it when `m` is even. Below a power of two the values lie
twice as close, so the lower half is half as wide there. A grid is the set of multiples of a power
of ten: `select` tries ever finer grids, and on each one the two neighbours of the number.
-/

import Bindery.Decimal.Binary64

namespace Bindery
namespace Decimal

/-- `digits * 10 ^ exponent` -/
structure Finite where
  digits : Nat
  exponent : Int
  deriving DecidableEq

/-- Compares `a * 10 ^ i` with `b * 2 ^ j`. -/
def compareScaled (a : Nat) (i : Int) (b : Nat) (j : Int) : Ordering :=
  compare (a * Nat.pow 10 i.toNat * Nat.pow 2 (-j).toNat)
    (b * Nat.pow 2 j.toNat * Nat.pow 10 (-i).toNat)

/-- Whether a decimal rounds to `m * 2 ^ e`. -/
def roundsTo (m : Nat) (e : Int) (d : Finite) : Bool :=
  let low := if m = Binary64.exponentBit ∧ e > -1074 then 4 * m - 1 else 4 * m - 2
  let below := compareScaled d.digits d.exponent low (e - 2)
  let above := compareScaled d.digits d.exponent (4 * m + 2) (e - 2)
  let closed := m % 2 == 0
  (below == .gt || (closed && below == .eq)) && (above == .lt || (closed && above == .eq))

/-- The greatest multiple of `10 ^ k` that is at most `m * 2 ^ e`, in units of `10 ^ k`. -/
def floorOn (m : Nat) (e k : Int) : Nat :=
  (m * Nat.pow 2 e.toNat * Nat.pow 10 (-k).toNat) / (Nat.pow 2 (-e).toNat * Nat.pow 10 k.toNat)

/-- The decimal on the grid of `10 ^ k` that rounds to the number and is nearest to it. -/
def onGrid? (m : Nat) (e k : Int) : Option Finite :=
  let low := floorOn m e k
  let below : Finite := ⟨low, k⟩
  let above : Finite := ⟨low + 1, k⟩
  match roundsTo m e below, roundsTo m e above with
  | true, true => if compareScaled (2 * low + 1) k (2 * m) e == .gt then some below else some above
  | true, false => some below
  | false, true => some above
  | false, false => none

/-- An exponent of ten at which a number has at most one digit. -/
def topGrid (m : Nat) (e : Int) : Int :=
  let bits := (m.log2 : Int) + e
  bits * 30103 / 100000 + 2

/-- The decimal with the fewest digits: grids are tried from the coarsest to one that has twenty
digits. -/
def select (m : Nat) (e : Int) : Finite :=
  let grids := (List.range 24).map fun (i : Nat) => topGrid m e - (i : Int)
  match grids.findSome? (onGrid? m e) with
  | some d => d
  | none => ⟨m * Nat.pow 2 e.toNat * Nat.pow 5 (-e).toNat, -((-e).toNat : Int)⟩

/-- The digits of a decimal with its point, in full and without an exponent. -/
def positional (d : Finite) : String :=
  let digits := Nat.toDigits 10 d.digits
  let zeros (n : Nat) : List Char := List.replicate n '0'
  if 0 ≤ d.exponent then String.ofList (digits ++ zeros d.exponent.toNat)
  else
    let places := (-d.exponent).toNat
    let padded := zeros (places + 1 - digits.length) ++ digits
    String.ofList (padded.take (padded.length - places) ++ '.' :: padded.drop (padded.length - places))

/-- A decimal without zeros at its end; zero is the digit zero. -/
def strip (d : Finite) : Finite :=
  let digits := Nat.toDigits 10 d.digits
  let zeros := (digits.reverse.takeWhile (· == '0')).length
  if d.digits = 0 then ⟨0, 0⟩ else ⟨d.digits / Nat.pow 10 zeros, d.exponent + zeros⟩

end Decimal

namespace Binary64

open Decimal

/-- The text of a real number: its shortest decimal, written in full. -/
def text (x : Binary64) : String :=
  let sign := if x.isNegative then "-" else ""
  match x.magnitude with
  | .notNumber => "NaN"
  | .infinite => sign ++ "inf"
  | .finite 0 _ => sign ++ "0"
  | .finite m e => sign ++ positional (strip (select m e))

/-- The text of a fraction with a fixed number of places, a half rounded to the even digit. -/
def fixedRatio (places num den : Nat) : String :=
  positional ⟨roundDiv (num * Nat.pow 10 places) den, -(places : Int)⟩

end Binary64
end Bindery
