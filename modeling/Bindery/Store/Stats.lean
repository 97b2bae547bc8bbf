/-
# Statistics

What a session has compiled, loaded and called. Constructors and kernels are counted by distinct
signature, so a call that is repeated counts once. The time spent compiling is shown in seconds
with three places, rounded from the nearest real number.
-/

import Bindery.Decimal.Shortest
import Bindery.Text.Digits

namespace Bindery

/-- What a session has done. -/
structure Stats where
  /-- Time spent compiling, in nanoseconds. -/
  compileNanos : Nat := 0
  compilations : Nat := 0
  failedCompilations : Nat := 0
  cacheHits : Nat := 0
  diskHits : Nat := 0
  classRegistrations : Nat := 0
  returnTypesResolved : Nat := 0
  constructors : List String := []
  kernels : List String := []
  deriving DecidableEq

namespace Stats

/-- Counts a compilation. -/
def compile (s : Stats) (nanos : Nat) (succeeded : Bool) : Stats :=
  let s := { s with compileNanos := s.compileNanos + nanos }
  if succeeded then { s with compilations := s.compilations + 1 }
  else { s with failedCompilations := s.failedCompilations + 1 }

/-- Adds a text that is not there yet. -/
def insert (texts : List String) (text : String) : List String :=
  if text ∈ texts then texts else texts ++ [text]

/-- Counts the signature of a constructor. -/
def constructor (s : Stats) (signature : String) : Stats :=
  { s with constructors := insert s.constructors signature }

/-- Counts the signature of a call. -/
def kernel (s : Stats) (signature : String) : Stats :=
  { s with kernels := insert s.kernels signature }

/-- The number of nanoseconds in a second. -/
def second : Nat := 1000000000

/-- Whole seconds and the rest are rounded each, and so is their sum. -/
def seconds (nanos : Nat) : Nat × Nat :=
  let ratio (num den : Nat) := ((Binary64.ofRatio false num den).ratio?).getD (0, 1)
  let (a, b) := ratio (nanos / second) 1
  let (c, d) := ratio (nanos % second) second
  ratio (a * d + c * b) (b * d)

/-- The statistics as shown at the end of a session. -/
def display (s : Stats) : String :=
  let (num, den) := seconds s.compileNanos
  "dynamic_compile_time=[" ++ Binary64.fixedRatio 3 num den ++ "]\n" ++
    "num_ctors=[" ++ Text.natText s.constructors.length ++ "]\n" ++
    "num_kernels=[" ++ Text.natText s.kernels.length ++ "]"

end Stats
end Bindery
