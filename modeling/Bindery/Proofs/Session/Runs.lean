/-
# Runs of a session

A session that was opened is asked for things, one after the other, and in between the world goes
on (`Session.Event`). A demand works at its bench in few ways, whatever it asks for and however it
ends (`Session.Does`). So an invariant is kept by a demand (`Session.Kept.answer`) and by a run
(`Session.Kept.after`) if it is kept where

| | |
| --- | --- |
| `world` | the world goes on, or code outside runs |
| `class_` | a class is come by |
| `call` | a call is come by, and counted if that succeeds |

It may speak about a `Tally` of the lookups made, those that failed, and the libraries that were
compiled and could not be loaded.
-/

import Bindery.Proofs.Session.Demands
import Bindery.Proofs.Store.Balance
import Bindery.Session.Opening

namespace Bindery

variable {σ L : Type}

theorem CacheError.isLoad_eq_false {e : CacheError} (h : e.isReport = true) : e.isLoad = false := by
  cases e with
  | call | unknownField => rfl
  | file | load | build | emit => exact absurd h nofun

namespace Session

/-- A session was just opened over a build directory of the world. -/
def Opened (s : Session σ L) (b : Bench σ L) : Prop :=
  ∃ p dir catalog w, exec (ofCatalog p dir catalog) w = (.ok (s, b.cache), b.world)

/-- A session that was just opened has nothing in memory, and has counted nothing. -/
theorem Opened.fresh {s : Session σ L} {b : Bench σ L} (h : s.Opened b) :
    b.cache.loaded = [] ∧ b.cache.classes = [] ∧ b.cache.stats = {} := by
  obtain ⟨p, dir, catalog, w, h⟩ := h
  obtain ⟨c, w₁, hcache, h⟩ := exec_bind_eq_ok h
  obtain ⟨rows, w₂, -, h⟩ := exec_bind_eq_ok h
  obtain ⟨-, -, hmemory⟩ := Cache.of_exec_ofDirectory hcache
  obtain ⟨-, rfl⟩ := Prod.mk.inj (Except.ok.inj (congrArg Prod.fst h))
  exact hmemory

/-! ### Events -/

/-- One thing that happens to a session or around it. -/
inductive Event (σ L : Type) where
  | demand (d : Demand (Binding L))
  /-- The world goes on. -/
  | elsewhere (world : World σ L → World σ L)

/-- The bench after one event. -/
def next (s : Session σ L) (b : Bench σ L) : Event σ L → Bench σ L
  | .demand d => (exec (s.answer d) b).2
  | .elsewhere world => { b with world := world b.world }

/-- The bench after events, first to last. -/
def after (s : Session σ L) (b : Bench σ L) (es : List (Event σ L)) : Bench σ L := es.foldl s.next b

/-- The call that a demand looks up, unless it is refused. -/
def lookup? (s : Session σ L) : Demand (Binding L) → Option Request
  | .call a => (a.request s.catalog).toOption
  | _ => none

/-- What happens to the cache when something is asked for at a bench, and is not counted in it. -/
def demandTally (s : Session σ L) (b : Bench σ L) (d : Demand (Binding L)) : Tally where
  lookups := (s.lookup? d).elim 0 fun _ => 1
  failed := (s.lookup? d).elim 0 fun r =>
    Tally.errors (exec (Cache.lookup s.platform r.key r.source) b).1
  unloadable :=
    match s.plan d with
    | .ok work => Tally.loadErrors (exec work b).1
    | .error _ => 0

/-- What happens to the cache along events, and is not counted in it. -/
def tally (s : Session σ L) (b : Bench σ L) : List (Event σ L) → Tally
  | [] => {}
  | .demand d :: es => (s.demandTally b d).add (s.tally (s.next b (.demand d)) es)
  | .elsewhere world :: es => s.tally (s.next b (.elsewhere world)) es

/-! ### What a run preserves -/

/-- An invariant is kept by everything that a session does at its bench, if the requests for its
calls are of a kind. -/
structure Kept (s : Session σ L) (made : Request → Prop) (I : Tally → Bench σ L → Prop) :
    Prop where
  world : ∀ {t b} w, I t b → I t { b with world := w }
  class_ : ∀ {t b} name, I t b → I (t.work (exec (Cache.ensureClass s.platform name) b).1)
    (exec (Cache.ensureClass s.platform name) b).2
  call : ∀ {t b r}, made r → I t b → I (t.lookup (exec (s.supply r) b).1) (exec (s.supply r) b).2

/-- An action that makes no lookup keeps an invariant. -/
def Keeps {α : Type} (I : Tally → Bench σ L → Prop) (f : Action σ L CacheError α) : Prop :=
  ∀ t b, I t b → I (t.work (exec f b).1) (exec f b).2

namespace Keeps

variable {α β : Type} {I : Tally → Bench σ L → Prop}

theorem pure (a : α) : Keeps I (pure a) := fun _ _ h => h

theorem throw {e : CacheError} (h : e.isLoad = false) : Keeps (α := α) I (throw e) := by
  intro t b hI
  have hwork : t.work (.error e : Except CacheError α) = t := by
    rw [Tally.work, Tally.loadErrors, h]
    rfl
  exact hwork.symm ▸ hI

/-- What is put together keeps what its parts keep. -/
theorem bind {f : Action σ L CacheError α} {g : α → Action σ L CacheError β} (hf : Keeps I f)
    (hg : ∀ a, Keeps I (g a)) : Keeps I (f >>= g) := by
  intro t b hI
  have hfirst := hf t b hI
  rcases hexec : exec f b with ⟨e | a, b'⟩
  · rw [exec_bind_error hexec]
    rw [hexec] at hfirst
    exact hfirst
  · rw [exec_bind_ok hexec]
    rw [hexec] at hfirst
    exact hg a t b' hfirst

end Keeps

/-- A call is counted behind its lookup, if that succeeds. -/
theorem exec_supply (s : Session σ L) (r : Request) (b : Bench σ L) :
    exec (s.supply r) b = match exec (Cache.lookup s.platform r.key r.source) b with
      | (.ok a, b') => (.ok a, b'.count (·.call r.kind r.key.signature))
      | (.error e, b') => (.error e, b') := by
  rw [supply, exec_bind]
  rcases exec (Cache.lookup s.platform r.key r.source) b with ⟨_ | a, b'⟩ <;> rfl

theorem errors_exec_supply (s : Session σ L) (r : Request) (b : Bench σ L) :
    Tally.errors (exec (s.supply r) b).1 =
      Tally.errors (exec (Cache.lookup s.platform r.key r.source) b).1 := by
  rw [exec_supply]
  rcases exec (Cache.lookup s.platform r.key r.source) b with ⟨_ | a, b'⟩ <;> rfl

/-- What is made of a result does not matter to what a run counts. -/
theorem loadErrors_exec_return {α β : Type} (f : Action σ L CacheError α) (g : α → β)
    (b : Bench σ L) : Tally.loadErrors (exec (do return g (← f)) b).1 =
        Tally.loadErrors (exec f b).1 ∧
      (exec (do return g (← f)) b).2 = (exec f b).2 := by
  rw [exec_bind]
  rcases exec f b with ⟨_ | a, b'⟩ <;> exact ⟨rfl, rfl⟩

theorem lookup?_eq_some {s : Session σ L} {d : Demand (Binding L)} {r : Request}
    (h : s.lookup? d = some r) : ∃ a, d = .call a ∧ a.request s.catalog = .ok r := by
  cases d with
  | call a =>
    rw [lookup?] at h
    cases hrequest : a.request s.catalog with
    | error e =>
      rw [hrequest] at h
      cases h
    | ok r' =>
      rw [hrequest] at h
      exact ⟨a, rfl, hrequest.trans (congrArg Except.ok (Option.some.inj h))⟩
  | getField | setField | classType | viewType | enumValue | aliasType => cases h

/-- Only calls are looked up. -/
theorem lookup?_of_ne_call (s : Session σ L) {d : Demand (Binding L)} (h : ∀ a, d ≠ .call a) :
    s.lookup? d = none := by
  cases d with
  | call a => exact absurd rfl (h a)
  | getField | setField | classType | viewType | enumValue | aliasType => rfl

/-- A call that is refused is not looked up. -/
theorem lookup?_of_plan_eq_error {s : Session σ L} {d : Demand (Binding L)} {e : SessionError}
    (h : s.plan d = .error e) : s.lookup? d = none := by
  cases d with
  | call a =>
    rw [lookup?, map_eq_error_iff.1 h]
    rfl
  | getField | setField | classType | viewType | enumValue | aliasType => rfl

namespace Kept

variable {s : Session σ L} {made : Request → Prop} {I : Tally → Bench σ L → Prop}

/-- **What is done beside lookups keeps an invariant.** -/
theorem keeps {α : Type} {f : Action σ L CacheError α} (h : s.Kept made I) (hf : s.Does f) :
    Keeps I f := by
  induction hf with
  | pure a => exact .pure a
  | throw hreport => exact .throw (CacheError.isLoad_eq_false hreport)
  | inWorld f => exact fun _ _ hI => h.world _ hI
  | ensureClass name => exact fun _ _ hI => h.class_ name hI
  | bind _ _ hf hg => exact hf.bind hg

/-- A call keeps an invariant, with its lookup. -/
theorem call_kept (h : s.Kept made I) {r : Request} (hmade : made r) {t : Tally} {b : Bench σ L}
    (hI : I t b) :
    I (t.add ⟨1, Tally.errors (exec (Cache.lookup s.platform r.key r.source) b).1,
      Tally.loadErrors (exec (s.perform r) b).1⟩) (exec (s.perform r) b).2 := by
  have hsupply := h.call hmade hI
  rw [← s.errors_exec_supply, perform_eq]
  rcases hexec : exec (s.supply r) b with ⟨e | a, b'⟩
  · rw [exec_bind_error hexec]
    rw [hexec] at hsupply
    exact hsupply
  · rw [exec_bind_ok hexec]
    rw [hexec] at hsupply
    exact (h.keeps (s.does_invoke a r.args.raw)).bind
      (fun result => h.keeps (s.does_cast result r.own)) _ b' hsupply

/-- **A demand keeps what is kept,** and its tally is added. -/
theorem answer (h : s.Kept made I) {d : Demand (Binding L)}
    (hmade : ∀ r, s.lookup? d = some r → made r) {t : Tally} {b : Bench σ L} (hI : I t b) :
    I (t.add (s.demandTally b d)) (exec (s.answer d) b).2 := by
  rw [exec_answer]
  cases hplan : s.plan d with
  | error e =>
    have htally : t.add (s.demandTally b d) = t := by
      rw [demandTally, lookup?_of_plan_eq_error hplan, hplan]
      rfl
    rwa [htally]
  | ok work =>
    by_cases hcall : ∃ a, d = .call a
    · obtain ⟨a, rfl⟩ := hcall
      obtain ⟨r, hrequest, rfl⟩ := exists_perform_of_plan hplan
      have hlookup : s.lookup? (.call a) = some r := by
        rw [lookup?, hrequest]
        rfl
      obtain ⟨herrors, hbench⟩ := loadErrors_exec_return (s.perform r) some b
      rw [demandTally, hlookup, hplan]
      dsimp only [Option.elim]
      rw [herrors, Action.exec_wrapError]
      exact hbench ▸ h.call_kept (hmade r hlookup) hI
    · have hother : ∀ a, d ≠ .call a := fun a hd => hcall ⟨a, hd⟩
      rw [demandTally, s.lookup?_of_ne_call hother, hplan]
      exact h.keeps (does_plan hother hplan) t b hI

/-- **A run keeps what is kept,** and its tally is added. -/
theorem after (h : s.Kept made I) {es : List (Event σ L)}
    (hmade : ∀ d r, .demand d ∈ es → s.lookup? d = some r → made r) {t : Tally} {b : Bench σ L}
    (hI : I t b) : I (t.add (s.tally b es)) (s.after b es) := by
  induction es generalizing t b with
  | nil => exact hI
  | cons e es ih =>
    have hrest : ∀ d r, .demand d ∈ es → s.lookup? d = some r → made r :=
      fun d r hd => hmade d r (List.mem_cons_of_mem _ hd)
    cases e with
    | demand d =>
      have hfirst := h.answer (hmade d · List.mem_cons_self) hI
      rw [tally, ← Tally.add_assoc]
      exact ih hrest hfirst
    | elsewhere world => exact ih hrest (h.world _ hI)

end Kept
end Session
end Bindery
