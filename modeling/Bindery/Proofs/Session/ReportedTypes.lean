/-
# The types that results report

Compiled code reports the type of an enumerator and of an object. The value that a result is cast
to goes by this type, normalised, and is passed on under it. Only an enumerator may get another
one: a name that the enumerations do not have, but of which exactly one of them is the qualified
name (`EnumTable.Completes`).

| reported for | the value goes by |
| --- | --- |
| an object that is not at the null pointer | the normalised name |
| an enumerator whose enumeration has the normalised name, or is not known | the normalised name |
| an enumerator with the unqualified end of exactly one enumeration | the name of the enumeration |

Nothing else in the table, in the cache or outside has a say in it (`Session.passedAs_of_cast`).
-/

import Bindery.Call.Marshalled
import Bindery.Proofs.Session.Wrapping

namespace Bindery

/-! ### Completed names -/

/-- A table has no type of a name, and the name is the end of one qualified name in it only. -/
structure EnumTable.Completes (table : EnumTable) (name full : String) : Prop where
  absent : ∀ t ∈ table.types, t.1 ≠ name
  only : (table.types.filter fun t => hasSuffix t.1 name).map (·.1) = [full]

/-- A name that is completed stands for the completion, and any other one for itself. -/
theorem EnumTable.typeName_reported (table : EnumTable) (name : String) (value : Int64) :
    (table.reported name value).typeName = Spelling.normalize name ∧
        (∀ full, ¬ table.Completes (Spelling.normalize name) full) ∨
      table.Completes (Spelling.normalize name) (table.reported name value).typeName := by
  have hresolve : (table.reported name value).typeName =
      ((table.find? (Spelling.normalize name)).map (·.1)).getD (Spelling.normalize name) := rfl
  rw [find?, Spelling.normalize_normalize] at hresolve
  rw [hresolve]
  generalize Spelling.normalize name = name
  cases hexact : table.types.find? (·.1 == name) with
  | some t =>
    have hname : t.1 = name := by simpa using List.find?_some hexact
    exact .inl ⟨hname, fun full h => h.absent t (List.mem_of_find?_eq_some hexact) hname⟩
  | none =>
    have habsent : ∀ t ∈ table.types, t.1 ≠ name := by simpa using hexact
    dsimp only
    cases hends : table.types.filter fun t => hasSuffix t.1 name with
    | nil => exact .inl ⟨rfl, fun full h => by simpa [hends] using h.only⟩
    | cons t rest =>
      cases rest with
      | nil => exact .inr ⟨habsent, by rw [hends]; rfl⟩
      | cons t' rest => exact .inl ⟨rfl, fun full h => by simpa [hends] using h.only⟩

/-! ### Values that are passed on -/

section

variable {ω : Type}

/-- A value goes by a type, and a call that it is passed on to spells this type: as such where it
is passed by value, and as what is pointed to where it is passed by pointer. -/
structure Value.PassedAs (v : Value ω) (type : String) : Prop where
  cppType : v.cppType = .ok type
  value : ∃ m, (Arg.value v).marshal = .ok m ∧ m.type = type ∧ m.spec.cppType = type
  pointer : ∃ m, (Arg.pointer v).marshal = .ok m ∧ m.type = type ++ "*" ∧ m.spec.cppType = type

theorem Value.passedAs_enumerator (v : EnumValue) :
    (Value.primitive (.enumerator v) : Value ω).PassedAs v.typeName :=
  ⟨rfl, ⟨_, rfl, rfl, rfl⟩, ⟨_, rfl, rfl, rfl⟩⟩

theorem Value.passedAs_ofHandle (type : String) (shape : List Nat) (h : Handle ω) :
    (Value.ofHandle type shape h).PassedAs type := by
  unfold Value.ofHandle
  split <;> exact ⟨rfl, ⟨_, rfl, rfl, rfl⟩, ⟨_, rfl, rfl, rfl⟩⟩

end

/-! ### Casting -/

namespace Result

/-- The name of the type that a result reports. -/
def reported? : Result → Option String
  | .enumerator typeName _ => some typeName
  | .handle h => if h.ptr = 0 then none else some h.typeName
  | _ => none

/-- The result is an enumerator. -/
def isEnumerator : Result → Bool
  | .enumerator _ _ => true
  | _ => false

end Result

namespace Session

variable {σ L : Type}

/-- A handle that is cast keeps its type, whichever way it is held. -/
theorem passedAs_of_castHandle (s : Session σ L) {h : Returned} {own : Bool} {b b' : Bench σ L}
    {v : Val L} (hptr : h.ptr ≠ 0) (hcast : exec (s.castHandle h own) b = (.ok v, b')) :
    v.PassedAs (Spelling.normalize h.typeName) := by
  unfold castHandle at hcast
  rw [if_neg hptr] at hcast
  obtain ⟨d, b₁, -, hcast⟩ := exec_bind_eq_ok hcast
  split at hcast
  · obtain ⟨serial, b₂, -, hcast⟩ := exec_bind_eq_ok hcast
    obtain rfl := Except.ok.inj (congrArg Prod.fst hcast)
    exact Value.passedAs_ofHandle _ _ _
  · obtain rfl := Except.ok.inj (congrArg Prod.fst hcast)
    exact Value.passedAs_ofHandle _ _ _

/-- **A value goes by the type that was reported,** whatever the cache knows and whoever owns what
the result refers to, and it is passed on under it. Only an enumerator whose name is completed by
the table goes by the completed name. -/
theorem passedAs_of_cast (s : Session σ L) {result : Result} {own : Bool} {b b' : Bench σ L}
    {v : Val L} {name : String} (reported : result.reported? = some name)
    (hcast : exec (s.cast result own) b = (.ok v, b')) :
    ∃ type, v.PassedAs type ∧
      (type = Spelling.normalize name ∧
          (result.isEnumerator → ∀ full, ¬ s.enums.Completes (Spelling.normalize name) full) ∨
        result.isEnumerator ∧ s.enums.Completes (Spelling.normalize name) type) := by
  cases result with
  | void | int | real | bool | text => exact absurd reported nofun
  | enumerator typeName value =>
    obtain rfl := Option.some.inj reported
    obtain rfl := Except.ok.inj (congrArg Prod.fst hcast)
    refine ⟨_, Value.passedAs_enumerator _, ?_⟩
    rcases s.enums.typeName_reported typeName value with ⟨hkept, hnone⟩ | hcompleted
    · exact .inl ⟨hkept, fun _ => hnone⟩
    · exact .inr ⟨rfl, hcompleted⟩
  | handle h =>
    have hptr : h.ptr ≠ 0 := fun hnull => by simp [Result.reported?, hnull] at reported
    rw [Result.reported?, if_neg hptr] at reported
    obtain rfl := Option.some.inj reported
    exact ⟨_, s.passedAs_of_castHandle hptr hcast, .inl ⟨rfl, nofun⟩⟩

/-! ### One enumeration -/

namespace Modes

/-- The table of a library with one enumeration, in a namespace. -/
def table : EnumTable := .ofRows [⟨"solver::Mode", "Fast", 0⟩]

/-- A session over the library. -/
def session : Session Script.Stage String := ⟨Script.platform {}, ⟨[], [], [], [], []⟩, table⟩

/-- The registration of a class. -/
def binding : Binding String := ⟨"P<int>", "f_0", "P<int>", "f_0"⟩

/-- A bench at which the class is known. -/
def bench : Bench Script.Stage String :=
  ⟨{ dir := "/build", context := {}, classes := [("P<int>", binding)] }, ⟨{}, {}, 0⟩⟩

/-- An object of the class, as the compiler spells it. -/
def object : Result := .handle ⟨4096, true, "P< int >", []⟩

end Modes

open Modes in
/-- The hypotheses of `passedAs_of_cast` are satisfiable: an object keeps the spelling that was
reported, but for its blanks, and so does an enumerator of a type that is not in the table. -/
theorem passedAs_of_cast_modes :
    (∃ v b', exec (session.cast object false) bench = (.ok v, b') ∧ v.PassedAs "P<int>") ∧
    ∃ v b', exec (session.cast (.enumerator "other:: Mode" 1) false) bench = (.ok v, b') ∧
      v.PassedAs "other::Mode" := by
  constructor
  · have hname : Spelling.normalize "P< int >" = "P<int>" := by decide
    have known : bench.cache.class? (Spelling.normalize "P< int >") = some binding := by
      rw [hname]
      rfl
    obtain ⟨v, hv, -⟩ := session.exec_castHandle (h := ⟨4096, true, "P< int >", []⟩) known false
    have hcast : exec (session.cast object false) bench = _ := hv
    obtain ⟨type, hpassed, ⟨rfl, -⟩ | ⟨henum, -⟩⟩ := session.passedAs_of_cast rfl hcast
    · exact ⟨v, _, hcast, hname ▸ hpassed⟩
    · exact absurd henum nofun
  · have hname : Spelling.normalize "other:: Mode" = "other::Mode" := by decide
    have hends : (table.types.filter fun t => EnumTable.hasSuffix t.1 "other::Mode") = [] := by
      decide +kernel
    have hcast : exec (session.cast (.enumerator "other:: Mode" 1) false) bench = _ := rfl
    obtain ⟨type, hpassed, ⟨rfl, -⟩ | ⟨-, hcompletes⟩⟩ := session.passedAs_of_cast rfl hcast
    · exact ⟨_, _, hcast, hname ▸ hpassed⟩
    · have honly := hcompletes.only
      rw [hname, show session.enums = table from rfl, hends] at honly
      exact absurd honly nofun

open Modes in
/-- An enumerator of a type that the compiler reports as `Mode` becomes one of `solver::Mode`, if
that is the only type of the table which ends so. -/
theorem cppType_of_completed_name :
    ∃ v, exec (session.cast (.enumerator "Mode" 0) false) bench = (.ok v, bench) ∧
      v.cppType = .ok "solver::Mode" ∧ v.cppType ≠ .ok (Spelling.normalize "Mode") := by
  have hname : (table.reported "Mode" 0).typeName = "solver::Mode" := by decide +kernel
  have hnormal : "solver::Mode" ≠ Spelling.normalize "Mode" := by decide
  refine ⟨.primitive (.enumerator (table.reported "Mode" 0)), rfl, congrArg Except.ok hname, ?_⟩
  exact fun h => hnormal (hname.symm.trans (Except.ok.inj h))

end Session
end Bindery
