/-
# Every call can be wrapped

A demand may fail for many reasons, but not because a wrapper could not be written: the request for
a call has a receiver where one is needed, and as many operands as its operator takes
(`Callee.Makes.accepts`). So of all the ways to fail only those are left that the parts of a demand
have (`FailsOnly`):

| part | fails with |
| --- | --- |
| the check and marshalling | what is wrong with the demand |
| coming by the library of a call or a class | the file system, the compiler, the loader |
| running it, reading and writing fields | what the library reported |
| casting the result | as coming by the library of its class |

Together with what a wrapper is made of this is `Session.calls_wrapped`.
-/

import Bindery.Proofs.Session.Demands
import Bindery.Proofs.Store.Steps

namespace Bindery

/-! ### Ways to fail -/

section

variable {S ε α β : Type}

/-- Whenever a computation ends with an error, the error and the state it ends in are allowed. -/
def FailsOnly (allowed : ε → S → Prop) (f : ExceptT ε (StateM S) α) : Prop :=
  ∀ s e s', exec f s = (.error e, s') → allowed e s'

namespace FailsOnly

variable {allowed : ε → S → Prop}

theorem pure (a : α) : FailsOnly allowed (pure a : ExceptT ε (StateM S) α) :=
  fun _ _ _ h => absurd (congrArg Prod.fst h) nofun

theorem throw {e : ε} (h : ∀ s, allowed e s) :
    FailsOnly (α := α) allowed (throw e) := by
  intro s e' s' he
  obtain ⟨he, -⟩ := Prod.mk.inj he
  obtain rfl := Except.error.inj he
  exact h s'

theorem lift (f : StateM S α) : FailsOnly allowed (ExceptT.lift f : ExceptT ε (StateM S) α) :=
  fun _ _ _ h => absurd (congrArg Prod.fst h) nofun

/-- What is put together fails as its parts do. -/
theorem bind {f : ExceptT ε (StateM S) α} {g : α → ExceptT ε (StateM S) β}
    (hf : FailsOnly allowed f) (hg : ∀ a, FailsOnly allowed (g a)) :
    FailsOnly allowed (f >>= g) := by
  intro s e s' h
  rcases hexec : exec f s with ⟨e' | a, t⟩
  · rw [exec_bind_error hexec] at h
    obtain ⟨he, rfl⟩ := Prod.mk.inj h
    obtain rfl := Except.error.inj he
    exact hf s e' t hexec
  · rw [exec_bind_ok hexec] at h
    exact hg a t e s' h

end FailsOnly

end

variable {σ L : Type}

theorem Action.failsOnly_count {ε : Type} {allowed : ε → Bench σ L → Prop} (f : Stats → Stats) :
    FailsOnly allowed (Action.count f : Action σ L ε Unit) :=
  fun _ _ _ h => absurd (congrArg Prod.fst h) nofun

namespace Session

variable {s : Session σ L}

/-- A way to fail is allowed for what a session does at its bench: with any report of a call or a
field, and as coming by a class fails. -/
structure Allows (s : Session σ L) (allowed : CacheError → Bench σ L → Prop) : Prop where
  report : ∀ e b, e.isReport = true → allowed e b
  ensureClass : ∀ name, FailsOnly allowed (Cache.ensureClass s.platform name)

namespace Allows

variable {allowed : CacheError → Bench σ L → Prop}

theorem does {α : Type} {f : Action σ L CacheError α} (h : s.Allows allowed) (hf : s.Does f) :
    FailsOnly allowed f := by
  induction hf with
  | pure a => exact .pure a
  | throw hreport => exact .throw fun b => h.report _ b hreport
  | inWorld f => exact .lift _
  | ensureClass name => exact h.ensureClass name
  | bind _ _ hf hg => exact hf.bind hg

/-- **How a demand fails that was not refused,** if it is allowed for lookups to fail so. -/
theorem plan (h : s.Allows allowed) {d : Demand (Binding L)}
    (lookup : ∀ a r, d = .call a → a.request s.catalog = .ok r →
      FailsOnly allowed (Cache.lookup s.platform r.key r.source))
    {work : Action σ L CacheError (Option (Val L))} (hplan : s.plan d = .ok work) :
    FailsOnly allowed work := by
  by_cases hcall : ∃ a, d = .call a
  · obtain ⟨a, rfl⟩ := hcall
    obtain ⟨r, hrequest, rfl⟩ := exists_perform_of_plan hplan
    have hsupply : FailsOnly allowed (s.supply r) :=
      (lookup a r rfl hrequest).bind fun _ => (Action.failsOnly_count _).bind fun _ => .pure _
    rw [perform_eq]
    refine .bind (hsupply.bind fun artifact => ?_) fun _ => .pure _
    exact (h.does (s.does_invoke _ _)).bind fun result => h.does (s.does_cast _ _)
  · exact h.does (does_plan (fun a hd => hcall ⟨a, hd⟩) hplan)

end Allows
end Session

/-! ### Coming by libraries -/

/-- The error is that a wrapper could not be written. -/
def CacheError.isEmit : CacheError → Bool
  | .emit _ => true
  | _ => false

namespace Cache

/-- An attempt with a source does not fail for want of one. -/
theorem Attempt.isEmit_eq_false {α : Type} {p : Platform σ L} {c : Cache L} {stem : String}
    {load : String → Load σ L α} {source : Except Source.EmitError Source.Unit} {w w' : World σ L}
    {e : CacheError} {s : Stats} (hsource : ∃ unit, source = .ok unit)
    (h : Attempt p c stem load source w (.error e) s w') : e.isEmit = false := by
  obtain ⟨unit, rfl⟩ := hsource
  generalize hr : Except.error e = r at h
  cases h with
  | disk => exact absurd hr nofun
  | unemitted _ hemit => exact absurd hemit nofun
  | unwritten | uncompiled =>
    obtain rfl := Except.error.inj hr
    rfl
  | compiled =>
    obtain ⟨e', -, rfl⟩ := exists_of_mapError_eq_error hr.symm
    rfl

theorem Registering.isEmit_eq_false {p : Platform σ L} {name : String} {b b' : Bench σ L}
    {e : CacheError} (h : Registering p name b (.error e) b') : e.isEmit = false := by
  cases h with
  | failed _ attempt => exact attempt.isEmit_eq_false ⟨_, rfl⟩

theorem Supplying.isEmit_eq_false {p : Platform σ L} {key : Key}
    {emit : Context → Except Source.EmitError Source.Unit}
    (hemit : ∀ context, ∃ unit, emit context = .ok unit) {b b' : Bench σ L} {e : CacheError}
    (h : Supplying p key emit b (.error e) b') : e.isEmit = false := by
  cases h with
  | failed _ attempt => exact attempt.isEmit_eq_false (hemit _)
  | unregistered _ _ _ class_ => exact class_.isEmit_eq_false

end Cache

/-! ### Demands -/

namespace Session

theorem allows_no_emit (s : Session σ L) : s.Allows fun e _ => e.isEmit = false where
  report := by
    intro e _ h
    cases e with
    | call | unknownField => rfl
    | file | load | build | emit => exact absurd h nofun
  ensureClass := fun _ _ _ _ h => (Cache.registering_of_exec h).isEmit_eq_false

/-- **No demand fails for want of a wrapper.** -/
theorem exec_answer_ne_emit (s : Session σ L) (d : Demand (Binding L)) (b : Bench σ L)
    (e : Source.EmitError) : (exec (s.answer d) b).1 ≠ .error (.cache (.emit e)) := by
  intro h
  rw [exec_answer] at h
  cases hplan : s.plan d with
  | error e' =>
    rw [hplan] at h
    obtain rfl := Except.error.inj h
    exact absurd (s.refuses_plan d _ hplan) nofun
  | ok work =>
    rw [hplan] at h
    have hwork : (exec work b).1.mapError SessionError.cache = .error (.cache (.emit e)) := h
    obtain ⟨e', he', heq⟩ := exists_of_mapError_eq_error hwork
    obtain rfl := SessionError.cache.inj heq
    have hlookup : ∀ a r, d = .call a → a.request s.catalog = .ok r →
        FailsOnly (fun e _ => e.isEmit = false) (Cache.lookup s.platform r.key r.source) := by
      intro a r _ hrequest _ _ _ hexec
      obtain ⟨c, types, -, hmakes⟩ := Asked.makes_of_request hrequest
      exact (Cache.supplying_of_exec hexec).isEmit_eq_false fun _ =>
        Source.exists_wrapper_iff.2 hmakes.accepts
    exact absurd (s.allows_no_emit.plan hlookup hplan b _ _ (Prod.ext he' rfl)) nofun

/-- **Every call can be wrapped.** A call has a wrapper if and only if its target accepts as many
arguments as there are. The wrapper reads every argument from its slot, in the way of its passing,
into locals of its own, and applies the target to what it read, each argument once and in order. An
operator whose operands are taken one by one is applied to these too, whatever would stand in for a
missing one. The target of every request accepts its arguments, so nothing that is asked of a
session fails because a wrapper could not be written. -/
theorem calls_wrapped (σ L : Type) :
    (∀ c : Source.Call, (∃ u, Source.wrapper c = .ok u) ↔ c.target.Accepts c.args.length) ∧
    (∀ c u, Source.wrapper c = .ok u →
      ∃ reading operands stmt, Source.Wraps c reading operands stmt u) ∧
    (∀ spare op operands stmt, Source.operatorStmtWith spare op operands = .ok stmt ↔
      Source.Applies (.operator op) operands stmt) ∧
    (∀ (m : Catalog) (a : Asked (Binding L)) r, a.request m = .ok r →
      r.target.Accepts r.args.specs.length) ∧
    ∀ (s : Session σ L) (d : Demand (Binding L)) (b : Bench σ L) (e : Source.EmitError),
      (exec (s.answer d) b).1 ≠ .error (.cache (.emit e)) := by
  refine ⟨fun _ => Source.exists_wrapper_iff, fun _ _ => Source.exists_wraps,
    fun _ _ _ _ => Source.operatorStmtWith_eq_ok_iff, fun m a r h => ?_, exec_answer_ne_emit⟩
  obtain ⟨c, types, -, hmakes⟩ := Asked.makes_of_request h
  exact hmakes.accepts

namespace Summing

/-- A class with an operator. -/
def classes : Catalog := ⟨[], [], [⟨"P", none, false, none, none, [.operator .add]⟩], [], []⟩

/-- The sum of an object of the class and a number. -/
def sum : Asked (Binding Empty) :=
  .operator (.object ⟨"P", "P", .borrowed 4096⟩) .add [.value (.primitive (.int 1))]

/-- What is asked for, as a request. -/
def summed : Request where
  key := (Signature.operator "P" .add ["int"]).key
  kind := .kernel
  target := .operator .add
  args := ⟨["P", "int"], [⟨"P", .reference⟩, ⟨"int", .value⟩], [.handle 4096, .int 1]⟩
  own := false

end Summing

open Summing in
/-- The hypotheses within `calls_wrapped` are satisfiable: a sum that is asked for is a request, and
its wrapper applies the operator to both operands. -/
theorem calls_wrapped_sum :
    sum.request classes = .ok summed ∧ summed.target.Accepts summed.args.specs.length ∧
      ∃ u reading operands stmt, summed.source {} = .ok u ∧
        Source.Wraps ⟨summed.key.hash, summed.target, summed.args.specs, []⟩ reading operands stmt
          u := by
  obtain ⟨hwrapper, hwraps, -, haccepts, -⟩ := calls_wrapped Unit Empty
  have hrequest : sum.request classes = .ok summed := rfl
  have hcount := haccepts classes sum summed hrequest
  obtain ⟨u, hu⟩ := (hwrapper ⟨summed.key.hash, summed.target, summed.args.specs, []⟩).2 hcount
  obtain ⟨reading, operands, stmt, hstmt⟩ := hwraps _ u hu
  exact ⟨hrequest, hcount, u, reading, operands, stmt, hu, hstmt⟩

end Session
end Bindery
