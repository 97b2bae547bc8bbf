/-
# Marshalled arguments belong together

The type of an argument in the signature of a call follows from its type and passing in the
wrapper (`ArgSpec.type`), and this is so for every argument of a call, in its order
(`Marshalled.Uniform`). A receiver comes first and is passed by reference.
-/

import Bindery.Call.Marshalled
import Bindery.Proofs.Outcome

namespace Bindery

variable {ω : Type}

/-- The type in a signature of an argument that a wrapper takes. -/
def ArgSpec.type (a : ArgSpec) : String :=
  match a.passing with
  | .pointer | .pointerToValue => a.cppType ++ "*"
  | .value | .reference | .text => a.cppType

/-- An argument passed as text has the type of a character buffer. -/
def ArgSpec.Regular (a : ArgSpec) : Prop := a.passing = .text → a.cppType = charsType

theorem Arg.marshal_spec {arg : Arg ω} {a : MarshalledArg} (h : arg.marshal = .ok a) :
    a.type = a.spec.type ∧ a.spec.Regular := by
  -- a primitive may have no raw value; everything else is decided by how it is passed
  rcases arg with p | (p | v | o | t) | (p | v | o | t) | text
  · obtain ⟨raw, -, rfl⟩ := exists_of_map_eq_ok h
    exact ⟨rfl, nofun⟩
  · obtain ⟨raw, -, rfl⟩ := exists_of_map_eq_ok h
    exact ⟨rfl, nofun⟩
  · obtain rfl := Except.ok.inj h
    exact ⟨rfl, nofun⟩
  · obtain rfl := Except.ok.inj h
    exact ⟨rfl, nofun⟩
  · exact absurd h nofun
  · obtain ⟨raw, -, rfl⟩ := exists_of_map_eq_ok h
    exact ⟨rfl, nofun⟩
  · obtain rfl := Except.ok.inj h
    exact ⟨rfl, nofun⟩
  · obtain rfl := Except.ok.inj h
    exact ⟨rfl, nofun⟩
  · exact absurd h nofun
  · obtain ⟨raw, -, rfl⟩ := exists_of_map_eq_ok h
    exact ⟨rfl, fun _ => rfl⟩

/-- An argument is marshalled with its type. -/
theorem Arg.cppType_of_marshal {arg : Arg ω} {a : MarshalledArg} (h : arg.marshal = .ok a) :
    arg.cppType = .ok a.type := by
  rcases arg with p | (p | v | o | t) | (p | v | o | t) | text
  case value.type | pointer.type => exact absurd h nofun
  case value.view | value.object | pointer.view | pointer.object =>
    obtain rfl := Except.ok.inj h
    rfl
  case owned | value.primitive | pointer.primitive | chars =>
    obtain ⟨raw, -, rfl⟩ := exists_of_map_eq_ok h
    rfl

namespace Marshalled

/-- Types and specs agree. -/
structure Uniform (m : Marshalled) : Prop where
  types : m.types = m.specs.map ArgSpec.type
  regular : ∀ a ∈ m.specs, a.Regular

theorem uniform_empty : Uniform {} := ⟨rfl, fun _ h => absurd h List.not_mem_nil⟩

theorem Uniform.append {m n : Marshalled} (hm : m.Uniform) (hn : n.Uniform) :
    (m.append n).Uniform := by
  refine ⟨?_, fun a ha => ?_⟩
  · show m.types ++ n.types = (m.specs ++ n.specs).map ArgSpec.type
    rw [List.map_append, ← hm.types, ← hn.types]
  · rcases List.mem_append.1 ha with ha | ha
    · exact hm.regular a ha
    · exact hn.regular a ha

theorem push_eq_ok {m n : Marshalled} {arg : Arg ω} (h : m.push arg = .ok n) :
    ∃ a, arg.marshal = .ok a ∧ n = m.append ⟨[a.type], [a.spec], [a.raw]⟩ := by
  obtain ⟨a, ha, hn⟩ := exists_of_map_eq_ok h
  exact ⟨a, ha, hn.symm⟩

theorem Uniform.push {m n : Marshalled} {arg : Arg ω} (hm : m.Uniform) (h : m.push arg = .ok n) :
    n.Uniform := by
  obtain ⟨a, ha, rfl⟩ := push_eq_ok h
  obtain ⟨htype, hregular⟩ := Arg.marshal_spec ha
  refine hm.append ⟨?_, fun b hb => ?_⟩
  · rw [htype]
    rfl
  · rwa [List.mem_singleton.1 hb]

theorem Uniform.foldlM {args : List (Arg ω)} {m n : Marshalled} (hm : m.Uniform)
    (h : args.foldlM Marshalled.push m = .ok n) : n.Uniform := by
  induction args generalizing m with
  | nil =>
    obtain rfl := Except.ok.inj h
    exact hm
  | cons arg args ih =>
    rw [List.foldlM_cons] at h
    obtain ⟨m', hpush, hrest⟩ := exists_of_bind_eq_ok h
    exact ih (hm.push hpush) hrest

/-- **Marshalled arguments are uniform.** -/
theorem uniform_of_ofArgs {args : List (Arg ω)} {m : Marshalled} (h : ofArgs args = .ok m) :
    m.Uniform :=
  uniform_empty.foldlM h

/-- There is one type for each argument. -/
theorem length_of_ofArgs {args : List (Arg ω)} {m : Marshalled} (h : ofArgs args = .ok m) :
    m.types.length = args.length := by
  suffices hfold : ∀ n : Marshalled, args.foldlM push n = .ok m →
      m.types.length = n.types.length + args.length by
    simpa using hfold {} h
  clear h
  intro n hn
  induction args generalizing n with
  | nil =>
    obtain rfl := Except.ok.inj hn
    rfl
  | cons arg args ih =>
    rw [List.foldlM_cons] at hn
    obtain ⟨n', hpush, hrest⟩ := exists_of_bind_eq_ok hn
    obtain ⟨a, -, rfl⟩ := push_eq_ok hpush
    rw [ih _ hrest, append, List.length_append, List.length_singleton, List.length_cons]
    omega

/-- **The types of marshalled arguments are those of the arguments,** in their order. -/
theorem types_of_ofArgs {args : List (Arg ω)} {m : Marshalled} (h : ofArgs args = .ok m) :
    args.mapM Arg.cppType = .ok m.types := by
  suffices hfold : ∀ n : Marshalled, args.foldlM push n = .ok m →
      ∃ types, args.mapM Arg.cppType = .ok types ∧ m.types = n.types ++ types by
    obtain ⟨types, htypes, hm⟩ := hfold {} h
    rw [htypes, hm]
    rfl
  clear h
  intro n hn
  induction args generalizing n with
  | nil =>
    obtain rfl := Except.ok.inj hn
    exact ⟨[], rfl, (List.append_nil _).symm⟩
  | cons arg args ih =>
    rw [List.foldlM_cons] at hn
    obtain ⟨n', hpush, hrest⟩ := exists_of_bind_eq_ok hn
    obtain ⟨a, ha, rfl⟩ := push_eq_ok hpush
    obtain ⟨types, htypes, hm⟩ := ih _ hrest
    refine ⟨a.type :: types, ?_, ?_⟩
    · rw [List.mapM_cons, Arg.cppType_of_marshal ha, htypes]
      rfl
    · rw [hm, append, List.append_assoc]
      rfl

/-- A receiver comes first, with its own type, and is passed by reference. -/
theorem withReceiver_eq_ok {receiver : Value ω} {type : String} {args : List (Arg ω)}
    {m : Marshalled} (hreceiver : ∀ p, receiver ≠ .primitive p)
    (htype : receiver.cppType = .ok type) (h : withReceiver receiver args = .ok m) :
    ∃ rest, ofArgs args = .ok rest ∧ m.types = type :: rest.types ∧
      m.specs = ⟨type, .reference⟩ :: rest.specs ∧ m.Uniform := by
  obtain ⟨first, hfirst, h⟩ := exists_of_bind_eq_ok h
  obtain ⟨rest, hrest, hm⟩ := exists_of_bind_eq_ok h
  obtain rfl : first.append rest = m := Except.ok.inj hm
  have huniform := (uniform_empty.push hfirst).append (uniform_of_ofArgs hrest)
  obtain ⟨a, ha, rfl⟩ := push_eq_ok hfirst
  cases receiver with
  | primitive p => exact absurd rfl (hreceiver p)
  | type t => exact absurd ha nofun
  | view v =>
    obtain rfl := Except.ok.inj ha
    obtain rfl := Except.ok.inj htype
    exact ⟨rest, hrest, rfl, rfl, huniform⟩
  | object o =>
    obtain rfl := Except.ok.inj ha
    obtain rfl := Except.ok.inj htype
    exact ⟨rest, hrest, rfl, rfl, huniform⟩

end Marshalled
end Bindery
