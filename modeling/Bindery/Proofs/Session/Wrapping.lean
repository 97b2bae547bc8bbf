/-
# Wrapping what a call gave

After a call has run it is too late to fail: an object that was given over would be lost. Casting
a result asks for the class of a handle, and this could compile. It does not, since the class
has been registered before the call was answered, under the same normalised name, and nothing
leaves the memory:

| a result | needs | becomes |
| --- | --- | --- |
| without a handle | nothing | a primitive |
| null handle | nothing | void |
| handle that is owned | its class, to give the object back | a new allocation |
| any other handle | its class | a borrowed handle |

The class of whatever a loaded call returns is known at all times (`Cache.ReturnsKnown`). So a
result that fits its call is cast without a failure, and only the next serial number changes
(`Session.cast_of_fitting`).
-/

import Bindery.Proofs.Cpp.NormalForm
import Bindery.Proofs.Store.Runs
import Bindery.Session.Calls

namespace Bindery

variable {σ L : Type}

/-! ### The classes of returned objects -/

namespace Cache

/-- The class of every object that a loaded call returns is known. -/
def ReturnsKnown (c : Cache L) : Prop :=
  ∀ hash a, c.loaded? hash = some a → a.returns.kind = .object →
    ∃ d, c.class? (Spelling.normalize a.returns.typeName) = some d

/-- A call that is loaded after a call of the cache was loaded before, or the class of what it
returns is known. -/
theorem Supplying.loaded_or_known {p : Platform σ L} {key : Key}
    {emit : Context → Except Source.EmitError Source.Unit} {b b' : Bench σ L}
    {r : Except CacheError (Artifact L)} (step : Supplying p key emit b r b') {hash : String}
    {a : Artifact L} (h : b'.cache.loaded? hash = some a) :
    b.cache.loaded? hash = some a ∨ (a.returns.kind = .object →
      ∃ d, b'.cache.class? (Spelling.normalize a.returns.typeName) = some d) := by
  cases step with
  | hit | failed => exact .inl h
  | unregistered _ _ _ hclass => exact .inl ((hclass.loaded?_eq hash).symm.trans h)
  | plain _ _ hkind =>
    rcases cases_of_loaded?_supplied h with ⟨-, rfl⟩ | ⟨-, h⟩
    · exact .inr fun hobject => absurd hobject hkind
    · exact .inl h
  | object _ _ _ hclass =>
    rcases cases_of_loaded?_supplied h with ⟨-, rfl⟩ | ⟨-, h⟩
    · exact .inr fun _ => ⟨_, hclass.class?_of_ok⟩
    · exact .inl ((hclass.loaded?_eq hash).symm.trans h)

namespace ReturnsKnown

theorem of_opened {b : Bench σ L} (opened : b.Opened) : b.cache.ReturnsKnown := by
  obtain ⟨p, dir, context, w, h⟩ := opened
  obtain ⟨-, -, hloaded, -, -⟩ := of_exec_ofDirectory h
  intro hash a ha
  simp [loaded?, hloaded] at ha

/-- It goes on if no class goes and each call was loaded before or its class is known. -/
theorem keeps {c c' : Cache L} (h : c.ReturnsKnown) (keeps : c.Keeps c')
    (loaded : ∀ hash a, c'.loaded? hash = some a → c.loaded? hash = some a ∨
      (a.returns.kind = .object →
        ∃ d, c'.class? (Spelling.normalize a.returns.typeName) = some d)) :
    c'.ReturnsKnown := by
  intro hash a ha hkind
  rcases loaded hash a ha with hold | hnew
  · obtain ⟨d, hd⟩ := h hash a hold hkind
    exact ⟨d, keeps.classes _ d hd⟩
  · exact hnew hkind

/-- One happening keeps the classes of returned objects known. -/
theorem next {b : Bench σ L} (h : b.cache.ReturnsKnown) (happening : Happening σ L) :
    (b.next happening).cache.ReturnsKnown := by
  refine h.keeps (keeps_next b happening) fun hash a ha => ?_
  cases happening with
  | lookup p key emit => exact (supplying_exec p key emit b).loaded_or_known ha
  | ensureClass p name => exact .inl (((registering_exec p name b).loaded?_eq hash).symm.trans ha)
  | elsewhere => exact .inl ha

/-- **The class of whatever a loaded call returns is known at all times.** -/
theorem after {b : Bench σ L} (opened : b.Opened) (hs : List (Happening σ L)) :
    (b.after hs).cache.ReturnsKnown :=
  Bench.after_induction (P := fun b => b.cache.ReturnsKnown) (fun _ h hb => hb.next h)
    (of_opened opened) hs

end ReturnsKnown

/-- The class of what an answered call returns is known from then on. -/
theorem known_of_lookup {b b₁ : Bench σ L} (opened : b.Opened) (hs : List (Happening σ L))
    {p : Platform σ L} {key : Key} {emit : Context → Except Source.EmitError Source.Unit}
    {a : Artifact L} (answered : exec (lookup p key emit) (b.after hs) = (.ok a, b₁))
    (hkind : a.returns.kind = .object) (more : List (Happening σ L)) :
    ∃ d, (b₁.after more).cache.class? (Spelling.normalize a.returns.typeName) = some d := by
  have hknown : b₁.cache.ReturnsKnown := by
    have hnext := (ReturnsKnown.after opened hs).next (.lookup p key emit)
    rwa [show (b.after hs).next (.lookup p key emit) = b₁ from congrArg Prod.snd answered] at hnext
  obtain ⟨d, hd⟩ := hknown _ a (supplying_of_exec answered).loaded?_of_ok hkind
  exact ⟨d, (keeps_after b₁ more).classes _ d hd⟩

end Cache

/-! ### Calling and casting -/

/-- A result is what a call was probed for: a handle is to an object of the class that the call
returns. Nothing is said about where it points and whether it is a pointer. -/
def Artifact.Fits (a : Artifact L) : Result → Prop
  | .handle h => a.returns.kind = .object ∧
      Spelling.normalize h.typeName = Spelling.normalize a.returns.typeName
  | _ => True

/-- A call leaves the cache and the files as they are. -/
theorem Artifact.of_exec_invoke {p : Platform σ L} {a : Artifact L} {args : List Raw}
    {b b' : Bench σ L} {r : Except CacheError Result} (h : exec (a.invoke p args) b = (r, b')) :
    b'.cache = b.cache ∧ b'.world.files = b.world.files := by
  rw [invoke, Action.ask, exec_bind_ok (Action.exec_inWorld _ b)] at h
  generalize Result.ofCall _ _ _ = outcome at h
  cases outcome <;> cases h <;> exact ⟨rfl, rfl⟩

/-- The handle that a value gets for a returned one, if that is not null: it owns the object unless
that was returned by pointer and nobody takes it over. -/
def Returned.held (h : Returned) (own : Bool) (serial : Nat) (d : Binding L) :
    Option (Handle (Binding L)) :=
  if h.ptr = 0 then none
  else if !h.isPointer || own then some (.owned serial h.ptr d)
  else some (.borrowed h.ptr)

/-- The bench after an allocation got its serial number, if there was one. -/
def Bench.numbered (b : Bench σ L) (allocated : Bool) : Bench σ L :=
  { b with world.serial := b.world.serial + allocated.toNat }

/-- A value owns an allocation of its own. -/
def Value.isOwner {ω : Type} (v : Value ω) : Bool := v.handle?.any (·.isOwned)

/-- What a value holds after a result was cast at a bench: nothing, or the handle, through the
registration of its class. -/
def Result.WrappedBy (result : Result) (own : Bool) (b : Bench σ L) (v : Value (Binding L)) :
    Prop :=
  match result with
  | .handle h => ∃ d, b.cache.class? (Spelling.normalize h.typeName) = some d ∧
      v.handle? = h.held own b.world.serial d
  | _ => v.handle? = none

theorem Value.handle?_ofHandle {ω : Type} (type : String) (shape : List Nat) (h : Handle ω) :
    (Value.ofHandle type shape h).handle? = some h := by
  unfold ofHandle
  split <;> rfl

namespace Session

/-- A handle to an object of a known class is cast. -/
theorem exec_castHandle (s : Session σ L) {h : Returned} {b : Bench σ L} {d : Binding L}
    (known : b.cache.class? (Spelling.normalize h.typeName) = some d) (own : Bool) :
    ∃ v, exec (s.castHandle h own) b = (.ok v, b.numbered v.isOwner) ∧
      v.handle? = h.held own b.world.serial d := by
  have hclass : exec (Cache.ensureClass s.platform (Spelling.normalize h.typeName)) b =
      (.ok d, b) :=
    Cache.exec_ensureClass_of_class? (by rwa [Spelling.normalize_normalize])
  let wrapped := Value.ofHandle (ω := Binding L) (Spelling.normalize h.typeName) h.extents
  have hwrapped : ∀ handle, (wrapped handle).handle? = some handle :=
    Value.handle?_ofHandle _ h.extents
  unfold castHandle Returned.held
  by_cases hnull : h.ptr = 0
  · simp only [if_pos hnull]
    exact ⟨.primitive .void, rfl, rfl⟩
  simp only [if_neg hnull]
  by_cases hown : (!h.isPointer || own) = true
  · simp only [if_pos hown]
    refine ⟨wrapped (.owned b.world.serial h.ptr d), ?_, hwrapped _⟩
    rw [Value.isOwner, hwrapped]
    exact (exec_bind_ok hclass).trans (exec_bind_ok (Action.exec_inWorld _ b))
  · simp only [if_neg hown]
    refine ⟨wrapped (.borrowed h.ptr), ?_, hwrapped _⟩
    rw [Value.isOwner, hwrapped]
    exact exec_bind_ok hclass

/-- **A result that fits its call is cast,** if the class of what the call returns is known. -/
theorem exec_cast_of_fits (s : Session σ L) {a : Artifact L} {result : Result} {b : Bench σ L}
    (known : a.returns.kind = .object →
      ∃ d, b.cache.class? (Spelling.normalize a.returns.typeName) = some d)
    (fits : a.Fits result) (own : Bool) :
    ∃ v, exec (s.cast result own) b = (.ok v, b.numbered v.isOwner) ∧
      result.WrappedBy own b v := by
  cases result with
  | handle h =>
    obtain ⟨hkind, hname⟩ := fits
    obtain ⟨d, hd⟩ := known hkind
    rw [← hname] at hd
    obtain ⟨v, hcast, hheld⟩ := s.exec_castHandle hd own
    exact ⟨v, hcast, d, hd, hheld⟩
  | void | int | real | bool | text | enumerator => exact ⟨_, rfl, rfl⟩

/-- A request is carried out as soon as its call has given a result that fits. -/
theorem exec_perform_of_fits {b b₁ b₂ : Bench σ L} (opened : b.Opened)
    (hs : List (Happening σ L)) (s : Session σ L) {r : Request} {a : Artifact L}
    (answered : exec (Cache.lookup s.platform r.key r.source) (b.after hs) = (.ok a, b₁))
    {result : Result} (returned : exec (a.invoke s.platform r.args.raw)
      (b₁.count (·.call r.kind r.key.signature)) = (.ok result, b₂))
    (fits : a.Fits result) :
    ∃ v, exec (s.perform r) (b.after hs) = (.ok v, b₂.numbered v.isOwner) ∧
      result.WrappedBy r.own b₂ v := by
  obtain ⟨hcache, -⟩ := Artifact.of_exec_invoke returned
  have known : a.returns.kind = .object →
      ∃ d, b₂.cache.class? (Spelling.normalize a.returns.typeName) = some d := by
    intro hkind
    rw [hcache]
    exact Cache.known_of_lookup opened hs answered hkind []
  obtain ⟨v, hcast, hheld⟩ := s.exec_cast_of_fits known fits r.own
  refine ⟨v, (exec_bind_ok answered).trans ?_, hheld⟩
  exact (exec_bind_ok (Action.exec_count _ b₁)).trans ((exec_bind_ok returned).trans hcast)

/-- **Wrapping does not fail.** At any time a call is answered; at any time after that it runs and
gives a result that fits; and at any time after that the result is cast, with or without taking
over what it points to. Then there is a value, and nothing has changed except that an allocation
took the next serial number: not what is loaded, registered, indexed and counted, no file, and
nothing outside, so no compiler ran. Unless the handle is null, the value holds it, and it owns
the object through the registration of its class if that was returned by value or is taken
over. In particular a request that is answered so is carried out to its end, whatever its call
gives that fits. -/
theorem cast_of_fitting {b b₁ b₂ : Bench σ L} (opened : b.Opened) (hs : List (Happening σ L))
    {p : Platform σ L} {key : Key} {emit : Context → Except Source.EmitError Source.Unit}
    {a : Artifact L} (answered : exec (Cache.lookup p key emit) (b.after hs) = (.ok a, b₁))
    (more : List (Happening σ L)) (s : Session σ L) {args : List Raw} {result : Result}
    (returned : exec (a.invoke s.platform args) (b₁.after more) = (.ok result, b₂))
    (fits : a.Fits result) (rest : List (Happening σ L)) (own : Bool) :
    b₂.cache = (b₁.after more).cache ∧ b₂.world.files = (b₁.after more).world.files ∧
    (∃ v b₃, exec (s.cast result own) (b₂.after rest) = (.ok v, b₃) ∧
      b₃.cache = (b₂.after rest).cache ∧ b₃.world.files = (b₂.after rest).world.files ∧
      b₃.world.outside = (b₂.after rest).world.outside ∧
      b₃.world.serial = (b₂.after rest).world.serial + v.isOwner.toNat ∧
      result.WrappedBy own (b₂.after rest) v) ∧
    ∀ r : Request, s.platform = p → r.key = key → r.source = emit → ∀ given b₃,
      exec (a.invoke s.platform r.args.raw) (b₁.count (·.call r.kind r.key.signature)) =
        (.ok given, b₃) → a.Fits given →
      ∃ v, exec (s.perform r) (b.after hs) = (.ok v, b₃.numbered v.isOwner) ∧
        given.WrappedBy r.own b₃ v := by
  obtain ⟨hcache, hfiles⟩ := Artifact.of_exec_invoke returned
  have known : a.returns.kind = .object →
      ∃ d, (b₂.after rest).cache.class? (Spelling.normalize a.returns.typeName) = some d := by
    intro hkind
    obtain ⟨d, hd⟩ := Cache.known_of_lookup opened hs answered hkind more
    rw [← hcache] at hd
    exact ⟨d, (Cache.keeps_after b₂ rest).classes _ d hd⟩
  obtain ⟨v, hcast, hheld⟩ := s.exec_cast_of_fits known fits own
  refine ⟨hcache, hfiles, ⟨v, _, hcast, rfl, rfl, rfl, rfl, hheld⟩, ?_⟩
  rintro r rfl rfl rfl given b₃ hgiven hfits
  exact exec_perform_of_fits opened hs s answered hgiven hfits

/-- A compiler that knows a function which returns an object, and the class of the object. The
compiler spells the class in one way for the function and in another for the object. -/
def oneReturned : Script where
  parts := [
    ("f_0", {
      signature := "f()"
      description := ⟨2, some (Text.encode "P< int >")⟩
      replies := [{ raw := { Raw.handle 4096 with typeName := some (Text.encode "P<int >") } }] }),
    Script.entry { signature := "class P<int>", spelling := some (Text.encode "P<int>") }]

/-- A session with a platform, over a library of which nothing is known. -/
def bare (p : Platform σ L) : Session σ L := ⟨p, ⟨[], [], [], [], []⟩, {}⟩

/-- The hypotheses of `cast_of_fitting` are satisfiable: a function is compiled, its class
registered, and the object that it returns is owned by the value. -/
theorem cast_of_fitting_oneReturned :
    (Cache.fresh oneReturned).Opened ∧ ∃ a b₁ result b₂,
      exec (Cache.lookup (Script.platform oneReturned) ⟨"f_0", "f()"⟩ fun _ => .ok {})
        (Cache.fresh oneReturned) = (.ok a, b₁) ∧
      exec (a.invoke (Script.platform oneReturned) []) b₁ = (.ok result, b₂) ∧
      a.Fits result ∧ result = .handle ⟨4096, false, "P<int >", []⟩ ∧
      ∃ v b₃, exec ((bare (Script.platform oneReturned)).cast result false) b₂ = (.ok v, b₃) ∧
        b₃.cache = b₂.cache ∧ ∃ d, v.handle? = some (.owned b₂.world.serial 4096 d) := by
  have opened : (Cache.fresh oneReturned).Opened :=
    ⟨Script.platform oneReturned, "/build", {}, ⟨{}, {}, 0⟩, rfl⟩
  -- One evaluation of the call for all that it is to show.
  have hcall : (match exec (Cache.lookup (Script.platform oneReturned) ⟨"f_0", "f()"⟩
        fun _ => .ok {}) (Cache.fresh oneReturned) with
      | (.ok a, b₁) => decide (a.returns = ⟨.object, "P< int >"⟩) &&
        match exec (a.invoke (Script.platform oneReturned) []) b₁ with
        | (.ok result, _) => decide (result = .handle ⟨4096, false, "P<int >", []⟩)
        | _ => false
      | _ => false) = true := by
    decide +kernel
  rcases answered : exec (Cache.lookup (Script.platform oneReturned) ⟨"f_0", "f()"⟩
    fun _ => .ok {}) (Cache.fresh oneReturned) with ⟨_ | a, b₁⟩
  · rw [answered] at hcall
    exact absurd hcall nofun
  rw [answered] at hcall
  obtain ⟨hreturns, hinvoke⟩ := Bool.and_eq_true_iff.1 hcall
  rcases returned : exec (a.invoke (Script.platform oneReturned) []) b₁ with ⟨_ | result, b₂⟩
  · rw [returned] at hinvoke
    exact absurd hinvoke nofun
  rw [returned] at hinvoke
  obtain rfl := of_decide_eq_true hinvoke
  have hreturns := of_decide_eq_true hreturns
  have fits : a.Fits (.handle ⟨4096, false, "P<int >", []⟩) := by
    rw [Artifact.Fits, hreturns]
    decide +kernel
  obtain ⟨-, -, ⟨v, b₃, hcast, hcache, -, -, -, d, -, hheld⟩, -⟩ := cast_of_fitting opened []
    answered [] (bare (Script.platform oneReturned)) returned fits [] false
  exact ⟨opened, a, b₁, _, b₂, rfl, returned, fits, rfl, v, b₃, hcast, hcache, d, hheld⟩

end Session
end Bindery
