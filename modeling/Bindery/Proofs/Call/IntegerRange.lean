/-
# Integers that a call narrows

An integer is carried in 64 bits, but the type of an integer argument is `int`, whether it is passed
by value or by pointer. So the wrapper of a call reads it into a variable of 32 bits:

| | integer | variable in the wrapper |
| --- | --- | --- |
| by value | `v` | `int a = bind::read<int>(args[i])` |
| by pointer | `v` | `int s = bind::read<int>(args[i])`, of which the address is passed |

Marshalling does not look at the value. So an integer is accepted in any case, and kept by the
variable if and only if it is in the range of 32 bits (`Marshalled.integer_kept_iff`). Else the
variable holds the integer of that range that differs by a multiple of `2 ^ 32`.
-/

import Bindery.Cpp.Scalar
import Bindery.Proofs.Call.ReadBack
import Bindery.Source.Wrapper

namespace Bindery

variable {ω : Type}

/-! ### Ranges of integer types -/

namespace Scalar

/-- An integer is a value of a type. -/
def Holds (s : Scalar) (v : Int) : Prop :=
  ∃ bounds ∈ s.bounds?, bounds.1 ≤ v ∧ v ≤ bounds.2

/-- What a variable of an integer type holds that is given an integer: the value of the type that
differs from it by a multiple of the number of values. -/
def convert? (s : Scalar) (v : Int) : Option Int :=
  s.bounds?.map fun bounds => bounds.1 + (v - bounds.1) % (bounds.2 - bounds.1 + 1)

theorem ordered_of_bounds? {s : Scalar} {bounds : Int × Int} (h : bounds ∈ s.bounds?) :
    bounds.1 ≤ bounds.2 := by
  cases s <;> cases h <;> decide

/-- **A variable keeps an integer** if and only if it is a value of its type. -/
theorem convert?_eq_some_self_iff {s : Scalar} {v : Int} : s.convert? v = some v ↔ s.Holds v := by
  rw [convert?, Holds, Option.map_eq_some_iff]
  refine exists_congr fun bounds => and_congr_right fun hbounds => ?_
  have hsome : bounds.1 ≤ bounds.2 := ordered_of_bounds? hbounds
  constructor
  · intro hkept
    have hlow := Int.emod_nonneg (v - bounds.1) (b := bounds.2 - bounds.1 + 1) (by omega)
    have hhigh := Int.emod_lt_of_pos (v - bounds.1) (b := bounds.2 - bounds.1 + 1) (by omega)
    omega
  · rintro ⟨hlow, hhigh⟩
    rw [Int.emod_eq_of_lt (by omega) (by omega)]
    omega

theorem holds_int32_iff {v : Int} : int32.Holds v ↔ -0x80000000 ≤ v ∧ v < 0x80000000 := by
  constructor
  · rintro ⟨bounds, hbounds, hlow, hhigh⟩
    obtain rfl := Option.some.inj hbounds
    simp only at hlow hhigh
    omega
  · rintro ⟨hlow, hhigh⟩
    exact ⟨_, rfl, by simp only; omega, by simp only; omega⟩

theorem convert?_int32 (v : Int) : int32.convert? v = some (v.bmod 0x100000000) := by
  have hmod : v.bmod 0x100000000 = -0x80000000 + (v - -0x80000000) % 0x100000000 := by
    rw [Int.bmod]
    omega
  rw [hmod]
  rfl

end Scalar

/-! ### One integer -/

/-- A marshalled argument brings an integer to the wrapper, which reads it into a variable. -/
structure MarshalledArg.BringsInteger (a : MarshalledArg) (v : Int64) : Prop where
  /-- The integer crosses the boundary as it is. -/
  raw : a.raw.tag = Raw.intTag ∧ a.raw.i = v
  /-- The variable has the type in the spec, at whatever position the argument stands. -/
  read : ∀ i, ∃ name, Source.Stmt.declare a.spec.cppType .value name
    (Source.readSlot "read" a.spec.cppType i) ∈ Source.readArg i a.spec
  type : a.spec.cppType = "int"

namespace Arg

/-- The integer that is passed, by value or by pointer. -/
def integer? : Arg ω → Option Int64
  | owned (.int v) | value (.primitive (.int v)) | pointer (.primitive (.int v)) => some v
  | _ => none

/-- By cases on the three ways to pass an integer. -/
theorem bringsInteger_of_marshal {arg : Arg ω} {v : Int64} (hv : arg.integer? = some v)
    {a : MarshalledArg} (h : arg.marshal = .ok a) : a.BringsInteger v := by
  unfold integer? at hv
  split at hv
  · obtain rfl := Option.some.inj hv
    obtain rfl := Except.ok.inj h
    exact ⟨⟨rfl, rfl⟩, fun i => ⟨Source.numbered "a" i, List.mem_singleton_self _⟩, rfl⟩
  · obtain rfl := Option.some.inj hv
    obtain rfl := Except.ok.inj h
    exact ⟨⟨rfl, rfl⟩, fun i => ⟨Source.numbered "a" i, List.mem_singleton_self _⟩, rfl⟩
  · obtain rfl := Option.some.inj hv
    obtain rfl := Except.ok.inj h
    exact ⟨⟨rfl, rfl⟩, fun i => ⟨Source.numbered "s" i, List.mem_cons_self⟩, rfl⟩
  · exact absurd hv nofun

end Arg

/-! ### Integers among the arguments -/

namespace Marshalled

/-- The argument at a place is marshalled to what stands there in the three lists. -/
theorem exists_of_getElem? {args : List (Arg ω)} {m : Marshalled} (h : ofArgs args = .ok m)
    {i : Nat} {arg : Arg ω} (harg : args[i]? = some arg) :
    ∃ a, arg.marshal = .ok a ∧ m.types[i]? = some a.type ∧ m.specs[i]? = some a.spec ∧
      m.raw[i]? = some a.raw := by
  obtain ⟨as, hmarshal, rfl⟩ := exists_of_foldlM_push h
  obtain ⟨a, ha, hplace⟩ : ∃ a, arg.marshal = .ok a ∧ as[i]? = some a := by
    clear h
    induction hmarshal generalizing i with
    | nil => exact absurd harg nofun
    | cons hfirst _ ih =>
      cases i with
      | zero =>
        obtain rfl := Option.some.inj harg
        exact ⟨_, hfirst, rfl⟩
      | succ i => exact ih harg
  exact ⟨a, ha, by simp [append, ofList, hplace]⟩

/-- **Exactly when an integer argument is kept.** Arguments that are accepted bring each integer
among them to the wrapper as it is. There it is read into a variable of the type in the spec, which
keeps it if and only if it is in the range of 32 bits, and else holds what is left of it there. -/
theorem integer_kept_iff {args : List (Arg ω)} {m : Marshalled} (h : ofArgs args = .ok m) {i : Nat}
    {arg : Arg ω} (harg : args[i]? = some arg) {v : Int64} (hv : arg.integer? = some v) :
    ∃ (a : MarshalledArg) (s : Scalar), m.specs[i]? = some a.spec ∧ m.raw[i]? = some a.raw ∧
      a.BringsInteger v ∧ Scalar.ofSpelling? a.spec.cppType = some s ∧
      s.convert? v.toInt = some (v.toInt.bmod 0x100000000) ∧
      (s.convert? v.toInt = some v.toInt ↔ s.Holds v.toInt) ∧
      (s.Holds v.toInt ↔ -0x80000000 ≤ v.toInt ∧ v.toInt < 0x80000000) := by
  obtain ⟨a, ha, -, hspec, hraw⟩ := exists_of_getElem? h harg
  have hbrings := Arg.bringsInteger_of_marshal hv ha
  have hscalar : Scalar.ofSpelling? a.spec.cppType = some .int32 := by
    rw [hbrings.type]
    decide +kernel
  exact ⟨a, .int32, hspec, hraw, hbrings, hscalar, Scalar.convert?_int32 _,
    Scalar.convert?_eq_some_self_iff, Scalar.holds_int32_iff⟩

/-- An integer in each way of passing. -/
def integers (v : Int64) : List (Arg Unit) :=
  [.owned (.int v), .value (.primitive (.int v)), .pointer (.primitive (.int v))]

/-- The hypotheses of `integer_kept_iff` are satisfiable: by pointer, the greatest integer of 32
bits is kept. -/
theorem integer_kept_greatest :
    ∃ m, ofArgs (integers 2147483647) = .ok m ∧
      (integers 2147483647)[2]? = some (.pointer (.primitive (.int 2147483647))) ∧
      (.pointer (.primitive (.int 2147483647)) : Arg Unit).integer? = some 2147483647 ∧
      m.specs[2]? = some ⟨"int", .pointerToValue⟩ ∧
      Scalar.int32.Holds (2147483647 : Int64).toInt := by
  obtain ⟨m, hm⟩ : ∃ m, ofArgs (integers 2147483647) = .ok m := ⟨_, rfl⟩
  have harg : (integers 2147483647)[2]? = some (.pointer (.primitive (.int 2147483647))) := rfl
  obtain ⟨a, s, hspec, -, hbrings, hscalar, -, -, hholds⟩ := integer_kept_iff hm harg rfl
  have hs : s = .int32 := by
    rw [hbrings.type] at hscalar
    exact Option.some.inj (hscalar.symm.trans (by decide +kernel))
  have hplace : m.specs[2]? = some ⟨"int", .pointerToValue⟩ := by
    obtain rfl := Except.ok.inj hm
    rfl
  exact ⟨m, hm, harg, rfl, hplace, hs ▸ hholds.2 (by decide +kernel)⟩

/-- The next integer is accepted in each way, and turns into the least of 32 bits. -/
theorem not_kept_next :
    (ofArgs (integers 2147483648)).toOption.map (·.specs) =
      some [⟨"int", .value⟩, ⟨"int", .value⟩, ⟨"int", .pointerToValue⟩] ∧
    Scalar.ofSpelling? "int" = some .int32 ∧
    ¬ Scalar.int32.Holds (2147483648 : Int64).toInt ∧
    Scalar.int32.convert? (2147483648 : Int64).toInt = some (-2147483648) := by
  refine ⟨rfl, by decide +kernel, ?_, by decide +kernel⟩
  rw [Scalar.holds_int32_iff]
  decide

end Marshalled
end Bindery
