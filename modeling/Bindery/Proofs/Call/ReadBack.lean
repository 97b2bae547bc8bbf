/-
# Arguments are read back

What an argument is on the other side of the boundary, or why it cannot be passed, follows from the
argument alone (`Arg.received`):

| argument | received as |
| --- | --- |
| truth value, integer, real, text, by value or by pointer | itself, bit by bit |
| characters | text |
| enumerator | its value, without the name of its enumeration |
| view, object | its address; by pointer, marked as a pointer |
| void, a class, text with a NUL | refused |

Marshalling keeps this: the raw value of each argument is read back as what the argument is received
as (`Arg.arrives_of_marshal`), and arguments are marshalled up to the first that cannot be passed
(`Marshalled.ofArgs_eq_error_iff`). Lists that arguments are added to in place grow by one entry each,
or not at all (`Marshalled.run_write`). The main statement is `Marshalled.arguments_arrive`.
-/

import Bindery.Native.Result
import Bindery.Proofs.Call.Marshalled
import Bindery.Proofs.Text.Utf8
import Mathlib.Data.List.Forall2

namespace Bindery

variable {ω : Type}

/-! ### What is received -/

/-- What a primitive is received as, or why it cannot be passed. -/
def Primitive.received : Primitive → Except TypeError Result
  | void => .error .void
  | bool v => .ok (.bool v)
  | int v => .ok (.int v)
  | real v => .ok (.real v)
  | text s => if '\x00' ∈ s.toList then .error .interiorNul else .ok (.text s)
  | enumerator e => .ok (.enumerator "" e.value)

/-- What a value is received as, or why it cannot be passed. -/
def Value.received (byPointer : Bool) : Value ω → Except TypeError Result
  | primitive p => p.received
  | view v => .ok (.handle ⟨v.handle.ptr, byPointer, "", []⟩)
  | object o => .ok (.handle ⟨o.handle.ptr, byPointer, "", []⟩)
  | type t => .error (.typeObject t.cppType)

namespace Arg

/-- What an argument is received as, or why it cannot be passed. -/
def received : Arg ω → Except TypeError Result
  | owned p => p.received
  | value v => v.received false
  | pointer v => v.received true
  | chars s => (Primitive.text s).received

/-- Whether an argument is passed by pointer. -/
def isPointer : Arg ω → Bool
  | pointer _ => true
  | owned _ | value _ | chars _ => false

/-- A marshalled argument is true to the argument. -/
structure Arrives (arg : Arg ω) (a : MarshalledArg) : Prop where
  /-- The signature has the type of the argument. -/
  cppType : arg.cppType = .ok a.type
  /-- It is the type in the wrapper, with a `*` behind it exactly if a pointer is passed. -/
  type : a.type = a.spec.type
  /-- Characters have the type `char *` in both. -/
  regular : a.spec.Regular
  /-- The raw value is marked exactly if the argument is passed by pointer. -/
  pointer : a.raw.isPointer = if arg.isPointer then 1 else 0
  /-- The raw value is read back as what the argument is received as. -/
  read : ∃ r, arg.received = .ok r ∧ ∀ target, Result.ofCall a.raw Status.ok target = .ok r

end Arg

/-! ### One argument -/

theorem Raw.ofText_eq_error_iff {s : String} {e : TypeError} :
    Raw.ofText s = .error e ↔ (Primitive.text s).received = .error e := by
  unfold Raw.ofText Primitive.received
  by_cases h : '\x00' ∈ s.toList <;> simp [h]

theorem Primitive.raw_eq_error_iff {p : Primitive} {e : TypeError} :
    p.raw = .error e ↔ p.received = .error e := by
  cases p with
  | void => exact ⟨fun h => congrArg _ (Except.error.inj h), fun h => congrArg _ (Except.error.inj h)⟩
  | text s => exact Raw.ofText_eq_error_iff
  | bool | int | real | enumerator => exact ⟨nofun, nofun⟩

theorem Raw.ofText_eq_ok {s : String} {raw : Raw} (h : Raw.ofText s = .ok raw) :
    raw = .text s ∧ '\x00' ∉ s.toList := by
  unfold Raw.ofText at h
  split at h
  · exact absurd h nofun
  · rename_i hplain
    exact ⟨(Except.ok.inj h).symm, by simpa using hplain⟩

/-- A text without NUL is read back, marked as a pointer or not. -/
theorem Result.ofCall_text {s : String} (h : '\x00' ∉ s.toList) (isPointer : Int32)
    (target : String) :
    Result.ofCall { Raw.text s with isPointer } Status.ok target = .ok (.text s) := by
  have hread : Result.ofCall { Raw.text s with isPointer } Status.ok target =
      .ok (.text (Text.ofC (some (Text.encode s)))) := rfl
  rw [hread, Text.ofC_encode h]

/-- The raw value of a primitive is not marked, and is read back as what the primitive is received
as, whether it is marked or not. -/
theorem Primitive.read_of_raw {p : Primitive} {raw : Raw} (h : p.raw = .ok raw) :
    raw.isPointer = 0 ∧ ∃ r, p.received = .ok r ∧ ∀ isPointer target,
      Result.ofCall { raw with isPointer } Status.ok target = .ok r := by
  cases p with
  | void => exact absurd h nofun
  | bool v =>
    obtain rfl := Except.ok.inj h
    exact ⟨rfl, _, rfl, fun _ _ => by cases v <;> rfl⟩
  | int v =>
    obtain rfl := Except.ok.inj h
    exact ⟨rfl, _, rfl, fun _ _ => rfl⟩
  | real v =>
    obtain rfl := Except.ok.inj h
    exact ⟨rfl, _, rfl, fun _ _ => rfl⟩
  | text s =>
    obtain ⟨rfl, hplain⟩ := Raw.ofText_eq_ok h
    exact ⟨rfl, _, if_neg hplain, Result.ofCall_text hplain⟩
  | enumerator e =>
    obtain rfl := Except.ok.inj h
    exact ⟨rfl, _, rfl, fun _ _ => rfl⟩

namespace Arg

/-- A primitive by value arrives. -/
theorem arrives_primitive {arg : Arg ω} {p : Primitive} {raw : Raw} (h : p.raw = .ok raw)
    (htype : arg.cppType = .ok p.cppType) (hreceived : arg.received = p.received)
    (hplain : arg.isPointer = false) : Arrives arg ⟨p.cppType, ⟨p.cppType, .value⟩, raw⟩ := by
  obtain ⟨hmark, r, hr, hread⟩ := Primitive.read_of_raw h
  refine ⟨htype, rfl, nofun, ?_, r, hreceived.trans hr, hread raw.isPointer⟩
  rw [hplain]
  exact hmark

/-- **What is marshalled is true to the argument.** By cases on the argument, as it is marshalled. -/
theorem arrives_of_marshal {arg : Arg ω} {a : MarshalledArg} (h : arg.marshal = .ok a) :
    Arrives arg a := by
  rcases arg with p | (p | v | o | t) | (p | v | o | t) | s
  · obtain ⟨raw, hraw, rfl⟩ := exists_of_map_eq_ok h
    exact arrives_primitive hraw rfl rfl rfl
  · obtain ⟨raw, hraw, rfl⟩ := exists_of_map_eq_ok h
    exact arrives_primitive hraw rfl rfl rfl
  · obtain rfl := Except.ok.inj h
    exact ⟨rfl, rfl, nofun, rfl, _, rfl, fun _ => rfl⟩
  · obtain rfl := Except.ok.inj h
    exact ⟨rfl, rfl, nofun, rfl, _, rfl, fun _ => rfl⟩
  · exact absurd h nofun
  · obtain ⟨raw, hraw, rfl⟩ := exists_of_map_eq_ok h
    obtain ⟨-, r, hr, hread⟩ := Primitive.read_of_raw hraw
    exact ⟨rfl, rfl, nofun, rfl, r, hr, hread 1⟩
  · obtain rfl := Except.ok.inj h
    exact ⟨rfl, rfl, nofun, rfl, _, rfl, fun _ => rfl⟩
  · obtain rfl := Except.ok.inj h
    exact ⟨rfl, rfl, nofun, rfl, _, rfl, fun _ => rfl⟩
  · exact absurd h nofun
  · obtain ⟨raw, hraw, rfl⟩ := exists_of_map_eq_ok h
    obtain ⟨rfl, hplain⟩ := Raw.ofText_eq_ok hraw
    exact ⟨rfl, rfl, fun _ => rfl, rfl, _, if_neg hplain, Result.ofCall_text hplain 0⟩

theorem marshal_eq_error_iff {arg : Arg ω} {e : TypeError} :
    arg.marshal = .error e ↔ arg.received = .error e := by
  rcases arg with p | (p | v | o | t) | (p | v | o | t) | s
  · exact map_eq_error_iff.trans Primitive.raw_eq_error_iff
  · exact map_eq_error_iff.trans Primitive.raw_eq_error_iff
  · exact ⟨nofun, nofun⟩
  · exact ⟨nofun, nofun⟩
  · exact ⟨fun h => congrArg _ (Except.error.inj h), fun h => congrArg _ (Except.error.inj h)⟩
  · exact map_eq_error_iff.trans Primitive.raw_eq_error_iff
  · exact ⟨nofun, nofun⟩
  · exact ⟨nofun, nofun⟩
  · exact ⟨fun h => congrArg _ (Except.error.inj h), fun h => congrArg _ (Except.error.inj h)⟩
  · exact map_eq_error_iff.trans Raw.ofText_eq_error_iff

/-- An argument without a type cannot be passed, for the same reason. -/
theorem marshal_of_cppType {arg : Arg ω} {e : TypeError} (h : arg.cppType = .error e) :
    arg.marshal = .error e := by
  rcases arg with p | (p | v | o | t) | (p | v | o | t) | s
  case value.type => exact congrArg _ (Except.error.inj h)
  case pointer.type => exact congrArg _ (Except.error.inj h)
  all_goals exact absurd h nofun

end Arg

/-! ### Arguments in a row -/

namespace Marshalled

/-- The three lists of arguments that are marshalled. -/
def ofList (as : List MarshalledArg) : Marshalled :=
  ⟨as.map (·.type), as.map (·.spec), as.map (·.raw)⟩

theorem append_ofList_cons (m : Marshalled) (a : MarshalledArg) (as : List MarshalledArg) :
    (m.append ⟨[a.type], [a.spec], [a.raw]⟩).append (ofList as) = m.append (ofList (a :: as)) := by
  simp [append, ofList]

theorem push_eq_error_iff {m : Marshalled} {arg : Arg ω} {e : TypeError} :
    m.push arg = .error e ↔ arg.received = .error e :=
  map_eq_error_iff.trans Arg.marshal_eq_error_iff

/-- Each list grows by one entry for each argument, in the order of the arguments. -/
theorem exists_of_foldlM_push {args : List (Arg ω)} {m n : Marshalled}
    (h : args.foldlM push m = .ok n) :
    ∃ as, List.Forall₂ (fun arg a => arg.marshal = .ok a) args as ∧ n = m.append (ofList as) := by
  induction args generalizing m with
  | nil =>
    obtain rfl := Except.ok.inj h
    exact ⟨[], .nil, by simp [append, ofList]⟩
  | cons arg args ih =>
    rw [List.foldlM_cons] at h
    obtain ⟨m', hpush, hrest⟩ := exists_of_bind_eq_ok h
    obtain ⟨a, ha, rfl⟩ := push_eq_ok hpush
    obtain ⟨as, hmarshal, rfl⟩ := ih hrest
    exact ⟨a :: as, .cons ha hmarshal, append_ofList_cons m a as⟩

theorem foldlM_push_eq_ok {args : List (Arg ω)} {m n : Marshalled}
    (h : args.foldlM push m = .ok n) :
    ∃ as, List.Forall₂ Arg.Arrives args as ∧ n = m.append (ofList as) := by
  obtain ⟨as, hmarshal, heq⟩ := exists_of_foldlM_push h
  exact ⟨as, hmarshal.imp fun _ _ => Arg.arrives_of_marshal, heq⟩

/-- An argument that cannot be passed, behind others that can. -/
def FirstFault (args : List (Arg ω)) (e : TypeError) : Prop :=
  ∃ before arg after, args = before ++ arg :: after ∧ (∀ b ∈ before, ∃ r, b.received = .ok r) ∧
    arg.received = .error e

theorem firstFault_cons {arg : Arg ω} {args : List (Arg ω)} {e : TypeError} :
    FirstFault (arg :: args) e ↔
      arg.received = .error e ∨ (∃ r, arg.received = .ok r) ∧ FirstFault args e := by
  constructor
  · rintro ⟨_ | ⟨b, before⟩, other, after, heq, hbefore, hother⟩
    · obtain ⟨rfl, -⟩ := List.cons.inj heq
      exact .inl hother
    · obtain ⟨rfl, rfl⟩ := List.cons.inj heq
      exact .inr ⟨hbefore _ List.mem_cons_self, before, other, after, rfl,
        fun b hb => hbefore b (List.mem_cons_of_mem _ hb), hother⟩
  · rintro (h | ⟨h, before, other, after, rfl, hbefore, hother⟩)
    · exact ⟨[], arg, args, rfl, List.forall_mem_nil _, h⟩
    · exact ⟨arg :: before, other, after, rfl, List.forall_mem_cons.2 ⟨h, hbefore⟩, hother⟩

theorem foldlM_push_eq_error_iff {args : List (Arg ω)} {m : Marshalled} {e : TypeError} :
    args.foldlM push m = .error e ↔ FirstFault args e := by
  induction args generalizing m with
  | nil =>
    refine ⟨fun h => absurd (h : Except.ok m = .error e) nofun, ?_⟩
    rintro ⟨before, arg, after, h, -⟩
    exact absurd h (by simp)
  | cons arg args ih =>
    rw [List.foldlM_cons, firstFault_cons]
    cases hpush : m.push arg with
    | error e' =>
      have hfault := push_eq_error_iff.1 hpush
      rw [hfault]
      exact ⟨fun h => .inl (congrArg _ (Except.error.inj h)), fun h =>
        h.elim (fun h => congrArg _ (Except.error.inj h)) fun ⟨⟨_, h⟩, _⟩ => absurd h nofun⟩
    | ok m' =>
      obtain ⟨a, ha, -⟩ := push_eq_ok hpush
      obtain ⟨r, hr, -⟩ := (Arg.arrives_of_marshal ha).read
      refine ih.trans ⟨fun h => .inr ⟨⟨r, hr⟩, h⟩, fun h => ?_⟩
      rcases h with h | ⟨-, h⟩
      · rw [hr] at h
        exact absurd h nofun
      · exact h

/-- **Marshalling fails for the first argument that cannot be passed,** and for no other reason. -/
theorem ofArgs_eq_error_iff {args : List (Arg ω)} {e : TypeError} :
    ofArgs args = .error e ↔ FirstFault args e :=
  foldlM_push_eq_error_iff

theorem exists_ofArgs_iff {args : List (Arg ω)} :
    (∃ m, ofArgs args = .ok m) ↔ ∀ arg ∈ args, ∃ r, arg.received = .ok r := by
  constructor
  · rintro ⟨m, h⟩
    obtain ⟨as, harrive, -⟩ := foldlM_push_eq_ok h
    have hreceived : List.Forall₂ (fun arg a => (∃ r, arg.received = .ok r) ∧ Arg.Arrives arg a)
        args as := harrive.imp fun _ _ ha => ⟨ha.read.imp fun _ => And.left, ha⟩
    exact ((List.forall₂_and_left args as).1 hreceived).1
  · intro hall
    cases h : ofArgs args with
    | ok m => exact ⟨m, rfl⟩
    | error e =>
      obtain ⟨before, arg, after, rfl, -, he⟩ := ofArgs_eq_error_iff.1 h
      obtain ⟨r, hr⟩ := hall arg (List.mem_append_right _ List.mem_cons_self)
      rw [hr] at he
      exact absurd he nofun

/-! ### In place -/

/-- Adds an argument to lists that are there already: its type and its raw value, either of which may
be missing, and then one entry to each list. -/
def write (arg : Arg ω) : ExceptT TypeError (StateM Marshalled) Unit := do
  let type ← MonadExcept.ofExcept arg.cppType
  let a ← MonadExcept.ofExcept arg.marshal
  modify fun m => { m with types := m.types ++ [type] }
  modify fun m => { m with specs := m.specs ++ [a.spec] }
  modify fun m => { m with raw := m.raw ++ [a.raw] }

/-- An argument that cannot be passed leaves the lists as they were, and any other is added to all of
them. -/
theorem run_write (arg : Arg ω) (m : Marshalled) :
    (write arg).run.run m =
      match m.push arg with
      | .ok n => (.ok (), n)
      | .error e => (.error e, m) := by
  cases h : arg.marshal with
  | ok a =>
    rw [write, push, h, (Arg.arrives_of_marshal h).cppType]
    rfl
  | error e =>
    cases htype : arg.cppType with
    | ok type =>
      rw [write, push, h, htype]
      rfl
    | error e' =>
      rw [write, push, h, htype]
      exact congrArg (fun e => (Except.error e, m)) <|
        Except.error.inj ((Arg.marshal_of_cppType htype).symm.trans h)

/-- **Arguments arrive.** Marshalling succeeds if each argument can be passed. Then it gives a type, a
spec and a raw value for each, in the order of the arguments, and these are true to the argument. If
it fails, it is for the first argument that cannot be passed. In place, such an argument leaves the
three lists as they were, and any other is added to all of them. -/
theorem arguments_arrive (args : List (Arg ω)) :
    ((∃ m, ofArgs args = .ok m) ↔ ∀ arg ∈ args, ∃ r, arg.received = .ok r) ∧
    (∀ m, ofArgs args = .ok m → ∃ as, List.Forall₂ Arg.Arrives args as ∧ m = ofList as) ∧
    (∀ e, ofArgs args = .error e ↔ FirstFault args e) ∧
    ∀ (arg : Arg ω) (m : Marshalled),
      (∀ r, arg.received = .ok r → ∃ a, Arg.Arrives arg a ∧
        (write arg).run.run m = (.ok (), m.append (ofList [a]))) ∧
      ∀ e, arg.received = .error e → (write arg).run.run m = (.error e, m) := by
  refine ⟨exists_ofArgs_iff, fun m h => ?_, fun e => ofArgs_eq_error_iff, fun arg m =>
    ⟨fun r hr => ?_, fun e he => ?_⟩⟩
  · obtain ⟨as, harrive, rfl⟩ := foldlM_push_eq_ok h
    exact ⟨as, harrive, rfl⟩
  · cases hpush : m.push arg with
    | ok n =>
      obtain ⟨a, ha, rfl⟩ := push_eq_ok hpush
      refine ⟨a, Arg.arrives_of_marshal ha, ?_⟩
      rw [run_write, hpush]
      rfl
    | error e =>
      rw [push_eq_error_iff.1 hpush] at hr
      exact absurd hr nofun
  · rw [run_write, push_eq_error_iff.2 he]

/-- An object of a class template. -/
def grid : Value Unit := .object ⟨"geo::Grid<double,2>", "Grid", .borrowed 64⟩

/-- Arguments of several kinds, passed in all ways. -/
def mixed : List (Arg Unit) :=
  [.owned (.int (-2)), .value grid, .pointer grid, .chars "buf",
    .pointer (.primitive (.text "hi"))]

/-- Arguments of several kinds can be passed, and with two more that cannot, the first of these
counts. -/
theorem arguments_arrive_mixed :
    (∃ m, ofArgs mixed = .ok m ∧
      m.types = ["int", "geo::Grid<double,2>", "geo::Grid<double,2>*", "char *", "std::string*"] ∧
      ∃ as, List.Forall₂ Arg.Arrives mixed as ∧ m = ofList as) ∧
    ofArgs (mixed ++ [.owned .void, .chars "a\x00b"]) = .error .void ∧
    FirstFault (mixed ++ [.owned .void, .chars "a\x00b"]) .void ∧
    (write (.chars "a\x00b" : Arg Unit)).run.run (ofList []) = (.error .interiorNul, ofList []) := by
  have htypes : (ofArgs mixed).toOption.map (·.types) =
      some ["int", "geo::Grid<double,2>", "geo::Grid<double,2>*", "char *", "std::string*"] := by
    rfl
  have hfault : ofArgs (mixed ++ [.owned .void, .chars "a\x00b"]) = .error .void := by rfl
  obtain ⟨-, hok, -, hplace⟩ := arguments_arrive mixed
  obtain ⟨-, -, herror, -⟩ := arguments_arrive (mixed ++ [.owned .void, .chars "a\x00b"])
  refine ⟨?_, hfault, (herror .void).1 hfault, (hplace (.chars "a\x00b") (ofList [])).2 _ rfl⟩
  cases h : ofArgs mixed with
  | error e =>
    rw [h] at htypes
    exact absurd htypes nofun
  | ok m =>
    rw [h] at htypes
    exact ⟨m, rfl, Option.some.inj htypes, hok m h⟩

end Marshalled
end Bindery
