/-
# Every call is accounted for

Whatever a session is asked for, and however compiling, loading and calling end, its statistics
balance (`Cache.Balanced`). A library that could not be loaded is on one side of them only, and is
known from outside: the demand that compiled it ends with the error of loading it
(`Session.unloadable_iff`). The statistics also tell which calls are loaded, where the hashes tell
the signatures of the calls and the classes apart (`Vocabulary`):

| a signature is | exactly if |
| --- | --- |
| recorded, as that of a constructor or of another call | an artifact is loaded whose entry in the index has it |

The first holds for every run, the second for every run that keeps to a vocabulary
(`Session.accounts_of_run`). A call is recorded right behind its lookup, whether it was loaded
before or not, and a library is loaded and indexed as a whole.
-/

import Bindery.Proofs.Session.Emission
import Bindery.Proofs.Session.Runs
import Bindery.Proofs.Session.Wrapping
import Bindery.Proofs.Store.Restart

namespace Bindery

variable {σ L : Type}

namespace Stats

/-- The signatures that are recorded, of constructors and of other calls. -/
def signatures (s : Stats) : List String := s.constructors ++ s.kernels

theorem mem_insert {texts : List String} {text other : String} :
    other ∈ insert texts text ↔ other ∈ texts ∨ other = text := by
  unfold insert
  split
  · rename_i hmem
    exact ⟨Or.inl, fun h => h.elim id fun heq => heq ▸ hmem⟩
  · rw [List.mem_append, List.mem_singleton]

/-- Counting a call records its signature. -/
theorem mem_signatures_call {s : Stats} {kind : CallKind} {sig other : String} :
    other ∈ (s.call kind sig).signatures ↔ other ∈ s.signatures ∨ other = sig := by
  cases kind with
  | constructor =>
    show other ∈ insert s.constructors sig ++ s.kernels ↔ _
    rw [List.mem_append, mem_insert, signatures, List.mem_append, or_right_comm]
  | kernel =>
    show other ∈ s.constructors ++ insert s.kernels sig ↔ _
    rw [List.mem_append, mem_insert, signatures, List.mem_append, or_assoc]

end Stats

namespace Cache

/-- An artifact is loaded under a hash, and the index has a signature for it. -/
def HasSignature (c : Cache L) (hash sig : String) : Prop :=
  (∃ a, c.loaded? hash = some a) ∧ ∃ e, c.index.get? hash = some e ∧ e.signature = sig

/-- All classes that a cache knows are in a vocabulary. -/
def ClassesIn (V : Vocabulary) (c : Cache L) : Prop := ∀ q d, c.class? q = some d → V.classes q

theorem ClassesIn.of_keeps {V : Vocabulary} {c c' : Cache L} (h : c'.ClassesIn V)
    (keeps : c.Keeps c') : c.ClassesIn V := fun q d hd => h q d (keeps.classes q d hd)

/-- The loaded artifacts and the recorded signatures belong together. -/
structure Attributed (V : Vocabulary) (c : Cache L) : Prop where
  loaded : ∀ hash a, c.loaded? hash = some a → ∃ sig, V.calls sig ∧ hash = Key.hashOf sig ∧
    sig ∈ c.stats.signatures ∧ c.HasSignature hash sig
  recorded : ∀ sig ∈ c.stats.signatures, V.calls sig ∧ ∃ a, c.loaded? (Key.hashOf sig) = some a

namespace Attributed

variable {V : Vocabulary} {c c' : Cache L} {b b' : Bench σ L}

/-- The signatures of the loaded artifacts are those that are recorded. -/
theorem mem_signatures_iff (h : Attributed V c) {sig : String} :
    sig ∈ c.stats.signatures ↔ ∃ hash, c.HasSignature hash sig := by
  constructor
  · intro hsig
    obtain ⟨hcall, a, ha⟩ := h.recorded sig hsig
    obtain ⟨sig', hcall', hhash, -, hentry⟩ := h.loaded _ a ha
    obtain rfl := V.calls_injective hcall hcall' hhash
    exact ⟨_, hentry⟩
  · rintro ⟨hash, ⟨a, ha⟩, e, he, rfl⟩
    obtain ⟨sig', -, -, hsig', -, e', he', rfl⟩ := h.loaded hash a ha
    rw [he] at he'
    rwa [Option.some.inj he']

theorem start (hloaded : c.loaded = []) (hstats : c.stats = {}) : Attributed V c := by
  refine ⟨fun hash a ha => ?_, fun sig hsig => ?_⟩
  · rw [loaded?, hloaded] at ha
    cases ha
  · rw [hstats] at hsig
    exact absurd hsig List.not_mem_nil

/-- Only the calls, the index and the recorded signatures matter. -/
theorem congr (h : Attributed V c) (hloaded : c'.loaded = c.loaded) (hindex : c'.index = c.index)
    (hsignatures : c'.stats.signatures = c.stats.signatures) : Attributed V c' := by
  have hsame : ∀ hash, c'.loaded? hash = c.loaded? hash := by
    intro hash
    rw [loaded?, loaded?, hloaded]
  refine ⟨fun hash a ha => ?_, fun sig hsig => ?_⟩
  · rw [hsame] at ha
    obtain ⟨sig, hcall, hhash, hsig, hentry⟩ := h.loaded hash a ha
    refine ⟨sig, hcall, hhash, hsignatures ▸ hsig, ?_⟩
    rwa [HasSignature, hsame, hindex]
  · obtain ⟨hcall, a, ha⟩ := h.recorded sig (hsignatures ▸ hsig)
    exact ⟨hcall, a, (hsame _).trans ha⟩

/-- An attempt records and loads nothing. -/
theorem worked {α : Type} {p : Platform σ L} {stem : String} {load : String → Load σ L α}
    {source : Except Source.EmitError Source.Unit} {r : Except CacheError α} {s : Stats}
    {w : World σ L} (h : Attributed V b.cache)
    (attempt : Attempt p b.cache stem load source b.world r s w) :
    Attributed V (b.worked s w).cache := by
  have hmemory := attempt.sameMemory
  refine h.congr hmemory.loaded hmemory.index ?_
  rw [Stats.signatures, Stats.signatures, ← hmemory.constructors, ← hmemory.kernels]
  rfl

/-- The entry of a new class is none of a call. -/
theorem registered (h : Attributed V b.cache) {q : String} (hq : V.classes q) (d : Binding L) :
    Attributed V (b.registered q d).cache := by
  refine ⟨fun hash a ha => ?_, h.recorded⟩
  obtain ⟨sig, hcall, rfl, hsig, -, e, he, hentry⟩ := h.loaded hash a ha
  have hindex : (b.registered q d).cache.index.get? (Key.hashOf sig) = _ :=
    (recorded_frame (b.count fun s => { s with classRegistrations := s.classRegistrations + 1 })
      (classEntry q)).2 (Key.hashOf sig)
  refine ⟨sig, hcall, rfl, hsig, ⟨a, ha⟩, e, hindex.trans ?_, hentry⟩
  exact (if_neg (V.apart hcall hq).symm).trans he

/-- A call that is loaded already is recorded. -/
theorem counted (h : Attributed V c) {sig : String} (hcall : V.calls sig) {a : Artifact L}
    (ha : c.loaded? (Key.hashOf sig) = some a) (kind : CallKind) :
    Attributed V { c with stats := c.stats.call kind sig } := by
  refine ⟨fun hash a' ha' => ?_, fun sig' hsig' => ?_⟩
  · obtain ⟨sig', hcall', hhash, hsig', hentry⟩ := h.loaded hash a' ha'
    exact ⟨sig', hcall', hhash, Stats.mem_signatures_call.2 (.inl hsig'), hentry⟩
  · rcases Stats.mem_signatures_call.1 hsig' with hsig' | rfl
    · exact h.recorded sig' hsig'
    · exact ⟨hcall, a, ha⟩

/-- A call that is loaded, indexed and recorded. -/
theorem supplied (h : Attributed V b.cache) {sig : String} (hcall : V.calls sig) (a : Artifact L)
    (kind : CallKind) :
    Attributed V ((b.supplied (Key.ofSignature sig) a).count (·.call kind sig)).cache := by
  have hindex := (recorded_frame b (callEntry (Key.ofSignature sig) a)).2
  have hloaded := loaded?_cons b.cache (Key.hashOf sig)
  refine ⟨fun hash a' ha' => ?_, fun sig' hsig' => ?_⟩
  · rcases cases_of_loaded?_supplied ha' with ⟨rfl, rfl⟩ | ⟨hne, ha⟩
    · exact ⟨sig, hcall, rfl, Stats.mem_signatures_call.2 (.inr rfl), ⟨a', ha'⟩, _,
        (hindex _).trans (if_pos rfl), rfl⟩
    · obtain ⟨sig', hcall', hhash, hsig', -, e, he, hentry⟩ := h.loaded hash a' ha
      exact ⟨sig', hcall', hhash, Stats.mem_signatures_call.2 (.inl hsig'), ⟨a', ha'⟩, e,
        (hindex _).trans ((if_neg hne).trans he), hentry⟩
  · rcases Stats.mem_signatures_call.1 hsig' with hsig' | rfl
    · obtain ⟨hcall', a', ha'⟩ := h.recorded sig' hsig'
      by_cases hhash : Key.hashOf sig = Key.hashOf sig'
      · exact ⟨hcall', a, (hloaded _ a).trans (if_pos hhash)⟩
      · exact ⟨hcall', a', (hloaded _ a).trans ((if_neg hhash).trans ha')⟩
    · exact ⟨hcall, a, (hloaded _ a).trans (if_pos rfl)⟩

theorem resolved (h : Attributed V b.cache) : Attributed V b.resolved.cache := h.congr rfl rfl rfl

/-- Asking for a class of the vocabulary. -/
theorem registering {p : Platform σ L} {name : String} {r : Except CacheError (Binding L)}
    (step : Registering p name b r b') (classes : b'.cache.ClassesIn V)
    (h : Attributed V b.cache) : Attributed V b'.cache := by
  cases step with
  | known => exact h
  | failed _ attempt => exact h.worked attempt
  | new hnew attempt =>
    exact (h.worked attempt).registered (classes _ _ (Registering.new hnew attempt).class?_of_ok) _

/-- A lookup that fails. -/
theorem supplying_error {p : Platform σ L} {key : Key}
    {emit : Context → Except Source.EmitError Source.Unit} {e : CacheError}
    (step : Supplying p key emit b (.error e) b') (classes : b'.cache.ClassesIn V)
    (h : Attributed V b.cache) : Attributed V b'.cache := by
  cases step with
  | failed _ attempt => exact h.worked attempt
  | unregistered _ attempt _ class_ =>
    exact registering class_ classes (h.worked attempt).resolved

/-- A lookup that gives a call of the vocabulary, which is counted then. -/
theorem supplying_ok {p : Platform σ L} {sig : String} (hcall : V.calls sig)
    {emit : Context → Except Source.EmitError Source.Unit} {a : Artifact L}
    (step : Supplying p (Key.ofSignature sig) emit b (.ok a) b') (classes : b'.cache.ClassesIn V)
    (h : Attributed V b.cache) (kind : CallKind) :
    Attributed V (b'.count (·.call kind sig)).cache := by
  cases step with
  | hit hloaded => exact (h.counted hcall hloaded kind).congr rfl rfl (by cases kind <;> rfl)
  | plain _ attempt => exact (h.worked attempt).resolved.supplied hcall a kind
  | object hnew attempt _ class_ =>
    have hnew' := (class_.loaded?_eq (Key.hashOf sig)).trans hnew
    have hbefore := classes.of_keeps (keeps_supplied a hnew')
    exact (registering class_ hbefore (h.worked attempt).resolved).supplied hcall a kind

end Attributed
end Cache

namespace Session

/-- A request goes by the key of its signature. -/
theorem key_of_lookup? {s : Session σ L} {d : Demand (Binding L)} {r : Request}
    (h : s.lookup? d = some r) : r.key = Key.ofSignature r.key.signature := by
  obtain ⟨a, -, hrequest⟩ := lookup?_eq_some h
  obtain ⟨c, types, -, hmakes⟩ := Asked.makes_of_request hrequest
  rw [hmakes.key]
  rfl

/-- **Balanced books are kept,** whatever is asked for. -/
theorem kept_balanced (s : Session σ L) :
    s.Kept (fun _ => True) fun t b => Cache.Balanced t b.cache where
  world := fun _ h => h
  class_ := fun name h => h.registering (Cache.registering_exec s.platform name _)
  call := by
    intro t b r _ h
    have hlookup := h.supplying (Cache.supplying_exec s.platform r.key r.source b)
    rw [exec_supply]
    rcases hexec : exec (Cache.lookup s.platform r.key r.source) b with ⟨e | a, b'⟩
    · rw [hexec] at hlookup
      exact hlookup
    · rw [hexec] at hlookup
      exact hlookup.counted r.kind r.key.signature

/-- **Artifacts and recorded signatures stay together,** as long as the calls and the classes are in
a vocabulary. -/
theorem kept_attributed (s : Session σ L) (V : Vocabulary) :
    s.Kept (fun r => ∃ sig, V.calls sig ∧ r.key = Key.ofSignature sig) fun _ b =>
      b.cache.ClassesIn V → Cache.Attributed V b.cache where
  world := fun _ h => h
  class_ := by
    intro t b name h classes
    have step := Cache.registering_exec s.platform name b
    exact .registering step classes (h (classes.of_keeps step.keeps))
  call := by
    rintro t b r ⟨sig, hcall, hkey⟩ h
    have step := Cache.supplying_exec s.platform r.key r.source b
    rw [exec_supply]
    rcases hexec : exec (Cache.lookup s.platform r.key r.source) b with ⟨e | a, b'⟩
    · rw [hexec] at step
      exact fun classes => .supplying_error step classes (h (classes.of_keeps step.keeps))
    · rw [hexec] at step
      intro (classes : b'.cache.ClassesIn V)
      have hbefore := h (classes.of_keeps step.keeps)
      rw [hkey] at step ⊢
      exact .supplying_ok hcall step classes hbefore r.kind

/-- A demand ends with one error at most. -/
theorem unloadable_le_one (s : Session σ L) (b : Bench σ L) (d : Demand (Binding L)) :
    (s.demandTally b d).unloadable ≤ 1 := by
  rw [demandTally]
  dsimp only
  split
  · rename_i work _
    cases (exec work b).1 with
    | ok => exact Nat.zero_le 1
    | error e => exact Bool.toNat_le e.isLoad
  · exact Nat.zero_le 1

/-- **Which demands leave an unloadable library behind:** those that end with the error of loading
what was compiled just before. -/
theorem unloadable_iff (s : Session σ L) (b : Bench σ L) (d : Demand (Binding L)) :
    (s.demandTally b d).unloadable = 1 ↔ ∃ e b',
      exec (s.answer d) b = (.error (.cache (.load e)), b') ∧ Cache.Unloaded s.platform e b' := by
  have allows : s.Allows fun e b' => ∀ e', e = .load e' → Cache.Unloaded s.platform e' b' := by
    refine ⟨fun e b h e' he => ?_, fun name b e b' h e' he => ?_⟩
    · subst he
      exact absurd h Bool.false_ne_true
    · subst he
      exact (Cache.registering_of_exec h).unloaded
  rw [demandTally, exec_answer]
  cases hplan : s.plan d with
  | error e =>
    refine ⟨fun h => absurd h Nat.zero_ne_one, ?_⟩
    rintro ⟨e', b', h, -⟩
    obtain rfl := Except.error.inj (congrArg Prod.fst h)
    exact absurd (s.refuses_plan d _ hplan) Bool.false_ne_true
  | ok work =>
    have hfails := allows.plan (fun a r _ _ b e b' h e' he => by
      subst he
      exact (Cache.supplying_of_exec h).unloaded) hplan
    dsimp only
    rw [Action.exec_wrapError]
    rcases hexec : exec work b with ⟨e | v, b'⟩
    · constructor
      · intro h
        cases e with
        | load e => exact ⟨e, b', rfl, hfails b _ b' hexec e rfl⟩
        | file | build | emit | call | unknownField => exact absurd h Nat.zero_ne_one
      · rintro ⟨e', b'', h, -⟩
        obtain rfl := SessionError.cache.inj (Except.error.inj (congrArg Prod.fst h))
        rfl
    · refine ⟨fun h => absurd h Nat.zero_ne_one, ?_⟩
      rintro ⟨e', b'', h, -⟩
      cases congrArg Prod.fst h

/-- **Every call is accounted for.** However a session is used after it was opened, and whatever the
platform does:

- the class registrations are as many as the registered classes;
- cache hits, loaded artifacts and failed lookups are together as many as the lookups;
- resolved return types and class registrations are together as many as disk hits and compilations,
  without those whose library could not be loaded: at most one for each demand, and one exactly if
  the demand ends with the error of loading what was compiled just before;
- if a vocabulary has all signatures that are called and all classes that got registered, then the
  recorded signatures are those of the loaded artifacts, and each artifact has one. -/
theorem accounts_of_run {s : Session σ L} {b : Bench σ L} (opened : s.Opened b)
    (es : List (Event σ L)) :
    let c := (s.after b es).cache
    let t := s.tally b es
    ((c.classes.map (·.1)).Nodup ∧ c.stats.classRegistrations = c.classes.length) ∧
    ((c.loaded.map (·.1)).Nodup ∧ c.stats.cacheHits + c.loaded.length + t.failed = t.lookups) ∧
    (t.unloadable ≤ c.stats.compilations ∧
      c.stats.returnTypesResolved + c.stats.classRegistrations =
        c.stats.diskHits + (c.stats.compilations - t.unloadable) ∧
      ∀ d, (s.demandTally (s.after b es) d).unloadable ≤ 1 ∧
        ((s.demandTally (s.after b es) d).unloadable = 1 ↔ ∃ e b',
          exec (s.answer d) (s.after b es) = (.error (.cache (.load e)), b') ∧
            Cache.Unloaded s.platform e b')) ∧
    ∀ V : Vocabulary, (∀ d r, .demand d ∈ es → s.lookup? d = some r → V.calls r.key.signature) →
      c.ClassesIn V →
      (∀ sig, sig ∈ c.stats.constructors ∨ sig ∈ c.stats.kernels ↔
        ∃ hash, c.HasSignature hash sig) ∧
      ∀ hash a, c.loaded? hash = some a → ∃ sig, hash = Key.hashOf sig ∧ c.HasSignature hash sig := by
  obtain ⟨hloaded, hclasses, hstats⟩ := opened.fresh
  have hbalanced : Cache.Balanced (({} : Tally).add (s.tally b es)) (s.after b es).cache :=
    s.kept_balanced.after (fun _ _ _ _ => trivial)
      (Cache.Balanced.start hloaded hclasses hstats)
  rw [Tally.empty_add] at hbalanced
  refine ⟨⟨hbalanced.classes, hbalanced.registrations⟩, ⟨hbalanced.loaded, hbalanced.lookups⟩,
    ⟨hbalanced.unloadable, ?_, fun d => ⟨s.unloadable_le_one _ d, s.unloadable_iff _ d⟩⟩,
    fun V hcalls classes => ?_⟩
  · have hlibraries := hbalanced.libraries
    have hunloadable := hbalanced.unloadable
    omega
  · have hattributed := (s.kept_attributed V).after (t := {})
      (fun d r hd hr => ⟨_, hcalls d r hd hr, key_of_lookup? hr⟩)
      (fun _ => Cache.Attributed.start hloaded hstats) classes
    refine ⟨fun sig => ?_, fun hash a ha => ?_⟩
    · rw [← hattributed.mem_signatures_iff, Stats.signatures, List.mem_append]
    · obtain ⟨sig, -, hhash, -, hsignature⟩ := hattributed.loaded hash a ha
      exact ⟨sig, hhash, hsignature⟩

/-! ### A call that is repeated -/

namespace Repeated

/-- A session over a library with a function that returns an object. -/
def session : Session Script.Stage String := bare (Script.platform Cache.oneObject)

/-- The function is called. -/
def demand : Demand (Binding String) := .call (.function "f" [] {})

/-- It is called twice. -/
def events : List (Event Script.Stage String) := [.demand demand, .demand demand]

/-- The bench at which it is called. -/
def start : Bench Script.Stage String := Cache.fresh Cache.oneObject

theorem opened : session.Opened start :=
  ⟨Script.platform Cache.oneObject, "/build", ⟨[], [], [], [], []⟩, ⟨{}, {}, 0⟩, rfl⟩

theorem signature_eq {r : Request} (h : session.lookup? demand = some r) :
    r.key.signature = "f()" := by
  have hmap : (session.lookup? demand).map (·.key.signature) = some "f()" := by decide +kernel
  rw [h] at hmap
  exact Option.some.inj hmap

/-- What is seen of the cache behind both calls. -/
theorem evaluation :
    (session.after start events).cache.classes.map (·.1) = ["P"] ∧
    (session.after start events).cache.stats.kernels = ["f()"] ∧
    (session.after start events).cache.stats.cacheHits = 1 ∧
    (session.after start events).cache.loaded.length = 1 := by
  decide +kernel

theorem classesIn : (session.after start events).cache.ClassesIn Cache.oneObjectTexts := by
  intro q d hd
  have hmem : q ∈ (session.after start events).cache.classes.map (·.1) := by
    by_contra hnone
    rw [← find?_key_eq_none_iff] at hnone
    rw [Cache.class?, hnone] at hd
    cases hd
  rw [evaluation.1] at hmem
  exact List.mem_singleton.1 hmem

end Repeated

open Repeated in
/-- The hypotheses of `accounts_of_run` are satisfiable: the first call is compiled and the class of
its result registered, the second is a hit, and the index has the signature of the one artifact. -/
theorem accounts_of_run_repeated :
    session.Opened start ∧ (session.after start events).cache.ClassesIn Cache.oneObjectTexts ∧
    (session.tally start events).lookups = 2 + (session.tally start events).failed ∧
    ∃ hash, (session.after start events).cache.HasSignature hash "f()" := by
  obtain ⟨-, ⟨-, hlookups⟩, -, hsignatures⟩ := accounts_of_run opened events
  obtain ⟨-, hkernels, hhits, hloaded⟩ := evaluation
  have hcalls : ∀ d r, .demand d ∈ events → session.lookup? d = some r →
      Cache.oneObjectTexts.calls r.key.signature := by
    intro d r hd hr
    obtain rfl : d = demand := by simpa [events] using hd
    exact signature_eq hr
  refine ⟨opened, classesIn, ?_, ?_⟩
  · rw [hhits, hloaded] at hlookups
    omega
  · refine ((hsignatures Cache.oneObjectTexts hcalls classesIn).1 "f()").1 (.inr ?_)
    rw [hkernels]
    exact List.mem_singleton_self _

end Session
end Bindery
