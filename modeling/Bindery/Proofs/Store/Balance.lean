/-
# The statistics balance

A cache counts what it does in several places, on both sides of what can fail. What it does not
count is counted beside it, by the outcomes of its calls (`Tally`): the lookups, those that failed,
and the libraries that were compiled and then could not be loaded. With these the books balance
(`Cache.Balanced`):

| counted | equals |
| --- | --- |
| class registrations | registered classes |
| cache hits, loaded calls and failed lookups | lookups |
| resolved return types, class registrations and unloadable libraries | disk hits and compilations |

Unloadable libraries are seen from outside: what lies on disk and cannot be loaded is compiled
again, so only a library that was just compiled can end an attempt with a load error
(`Cache.Unloaded`). Whatever comes of asking for a class or a call, the books balance again behind
it (`Cache.Balanced.registering`, `Cache.Balanced.supplying`).
-/

import Bindery.Proofs.Lookup
import Bindery.Proofs.Outcome
import Bindery.Proofs.Store.Runs
import Bindery.Session.Basic

namespace Bindery

variable {σ L α : Type}

/-- The error is that a library could not be loaded. -/
def CacheError.isLoad : CacheError → Bool
  | .load _ => true
  | _ => false

/-- What happens to a cache and is not counted in it. -/
structure Tally where
  lookups : Nat := 0
  /-- Lookups that ended with an error. -/
  failed : Nat := 0
  /-- Libraries that were compiled and could not be loaded. -/
  unloadable : Nat := 0

namespace Tally

/-- How many errors there are in an outcome. -/
def errors : Except CacheError α → Nat
  | .ok _ => 0
  | .error _ => 1

/-- How many libraries could not be loaded, by an outcome. -/
def loadErrors : Except CacheError α → Nat
  | .ok _ => 0
  | .error e => e.isLoad.toNat

/-- The tally after something else than a lookup. -/
def work (t : Tally) (outcome : Except CacheError α) : Tally :=
  { t with unloadable := t.unloadable + loadErrors outcome }

/-- The tally after a lookup. -/
def lookup (t : Tally) (outcome : Except CacheError α) : Tally :=
  ⟨t.lookups + 1, t.failed + errors outcome, t.unloadable + loadErrors outcome⟩

/-- Both tallies. -/
def add (t u : Tally) : Tally :=
  ⟨t.lookups + u.lookups, t.failed + u.failed, t.unloadable + u.unloadable⟩

@[simp] theorem empty_add (t : Tally) : ({} : Tally).add t = t := by
  simp only [add, Nat.zero_add]

theorem add_assoc (t u v : Tally) : (t.add u).add v = t.add (u.add v) := by
  simp only [add, Nat.add_assoc]

end Tally

namespace Cache

/-! ### Attempts -/

namespace Attempt

variable {p : Platform σ L} {c : Cache L} {stem : String} {load : String → Load σ L α}
  {source : Except Source.EmitError Source.Unit} {w w' : World σ L} {s : Stats}

theorem returnTypesResolved_eq {r : Except CacheError α}
    (h : Attempt p c stem load source w r s w') :
    s.returnTypesResolved = c.stats.returnTypesResolved := by
  cases h with
  | disk | unemitted | unwritten | uncompiled | compiled => rfl

/-- A library that an attempt ends with, or cannot load, was found on disk or compiled. -/
theorem diskHits_add_compilations {r : Except CacheError α}
    (h : Attempt p c stem load source w r s w') :
    s.diskHits + s.compilations + Tally.errors r =
      c.stats.diskHits + c.stats.compilations + Tally.loadErrors r + 1 := by
  cases h with
  | disk =>
    show c.stats.diskHits + 1 + c.stats.compilations = c.stats.diskHits + c.stats.compilations + 1
    omega
  | unemitted | unwritten | uncompiled => rfl
  | @compiled _ _ _ _ r =>
    cases r with
    | ok => rfl
    | error => rfl

/-- A library that an attempt cannot load was compiled. -/
theorem compilations_of_loadErrors {r : Except CacheError α}
    (h : Attempt p c stem load source w r s w') :
    c.stats.compilations + Tally.loadErrors r ≤ s.compilations := by
  cases h with
  | disk | unemitted | unwritten | uncompiled => exact Nat.le_refl _
  | @compiled _ _ _ _ r =>
    cases r with
    | ok => exact Nat.le_add_right _ _
    | error => exact Nat.le_refl _

/-- An attempt that ends with a load error has compiled a library, and could not load it. -/
theorem of_load_error {e : LoadError}
    (h : Attempt p c stem load source w (.error (.load e)) s w') :
    ∃ path nanos w₁ w₂, p.compile (c.job stem) w₁ = (⟨.ok path, nanos⟩, w₂) ∧
      s = c.stats.compile nanos true ∧ exec (load path) w₂ = (.error e, w') := by
  generalize hr : Except.error (CacheError.load e) = r at h
  cases h with
  | disk | unemitted | unwritten | uncompiled => exact absurd hr nofun
  | compiled _ _ _ hcompile hload =>
    obtain ⟨e', rfl, he⟩ := exists_of_mapError_eq_error hr.symm
    obtain rfl := CacheError.load.inj he
    exact ⟨_, _, _, _, hcompile, rfl, hload⟩

end Attempt

/-! ### Libraries that cannot be loaded -/

/-- The last that happened at a bench is that the compiler made a library, of a call or of a class,
and that this could not be loaded. -/
def Unloaded (p : Platform σ L) (e : LoadError) (b : Bench σ L) : Prop :=
  ∃ (c : Cache L) (stem path : String) (nanos : Nat) (w w' : World σ L),
    p.compile (c.job stem) w = (⟨.ok path, nanos⟩, w') ∧
    b.cache = { c with stats := c.stats.compile nanos true } ∧
    (exec (Load.artifact p stem path) w' = (.error e, b.world) ∨
      ∃ qualified, exec (Load.binding p qualified stem path) w' = (.error e, b.world))

theorem Registering.unloaded {p : Platform σ L} {name : String} {b b' : Bench σ L} {e : LoadError}
    (h : Registering p name b (.error (.load e)) b') : Unloaded p e b' := by
  cases h with
  | failed _ attempt =>
    obtain ⟨path, nanos, w₁, w₂, hcompile, rfl, hload⟩ := attempt.of_load_error
    exact ⟨_, _, path, nanos, w₁, w₂, hcompile, rfl, .inr ⟨_, hload⟩⟩

theorem Supplying.unloaded {p : Platform σ L} {key : Key}
    {emit : Context → Except Source.EmitError Source.Unit} {b b' : Bench σ L} {e : LoadError}
    (h : Supplying p key emit b (.error (.load e)) b') : Unloaded p e b' := by
  cases h with
  | failed _ attempt =>
    obtain ⟨path, nanos, w₁, w₂, hcompile, rfl, hload⟩ := attempt.of_load_error
    exact ⟨_, _, path, nanos, w₁, w₂, hcompile, rfl, .inl hload⟩
  | unregistered _ _ _ class_ => exact class_.unloaded

/-! ### Balanced books -/

/-- What a cache has counted, and what has been counted beside it, fits what it has. -/
structure Balanced (t : Tally) (c : Cache L) : Prop where
  classes : (c.classes.map (·.1)).Nodup
  registrations : c.stats.classRegistrations = c.classes.length
  loaded : (c.loaded.map (·.1)).Nodup
  lookups : c.stats.cacheHits + c.loaded.length + t.failed = t.lookups
  libraries : c.stats.returnTypesResolved + c.stats.classRegistrations + t.unloadable =
    c.stats.diskHits + c.stats.compilations
  unloadable : t.unloadable ≤ c.stats.compilations

namespace Balanced

variable {t : Tally} {b b' : Bench σ L}

/-- A cache that has done nothing. -/
theorem start {c : Cache L} (hloaded : c.loaded = []) (hclasses : c.classes = [])
    (hstats : c.stats = {}) : Balanced {} c := by
  constructor <;> simp [hloaded, hclasses, hstats]

/-- A lookup that ends with an error. -/
theorem refused {c : Cache L} (h : Balanced t c) :
    Balanced ⟨t.lookups + 1, t.failed + 1, t.unloadable⟩ c where
  __ := h
  lookups := congrArg (· + 1) h.lookups

/-- A lookup that is answered from memory. -/
theorem hit (h : Balanced t b.cache) :
    Balanced ⟨t.lookups + 1, t.failed, t.unloadable⟩ b.hit.cache where
  __ := h
  lookups := by
    have hlookups := h.lookups
    show b.cache.stats.cacheHits + 1 + b.cache.loaded.length + t.failed = t.lookups + 1
    omega

/-- A lookup whose call is loaded. -/
theorem supplied (h : Balanced t b.cache) {key : Key} (hnew : b.cache.loaded? key.hash = none)
    (a : Artifact L) :
    Balanced ⟨t.lookups + 1, t.failed, t.unloadable⟩ (b.supplied key a).cache where
  __ := h
  loaded := List.nodup_cons.2 ⟨find?_key_eq_none_iff.1 hnew, h.loaded⟩
  lookups := by
    have hlookups := h.lookups
    show b.cache.stats.cacheHits + (b.cache.loaded.length + 1) + t.failed = t.lookups + 1
    omega

/-- Counting a call does not matter. -/
theorem counted (h : Balanced t b.cache) (kind : CallKind) (sig : String) :
    Balanced t (b.count (·.call kind sig)).cache := by
  cases kind <;> exact ⟨h.classes, h.registrations, h.loaded, h.lookups, h.libraries, h.unloadable⟩

section

variable {p : Platform σ L} {stem : String} {load : String → Load σ L α}
  {source : Except Source.EmitError Source.Unit} {s : Stats} {w : World σ L}

/-- Behind an attempt one library is on the books that is neither resolved nor registered, unless
the attempt failed. -/
theorem libraries_attempted (h : Balanced t b.cache) {r : Except CacheError α}
    (attempt : Attempt p b.cache stem load source b.world r s w) :
    s.returnTypesResolved + s.classRegistrations + (t.unloadable + Tally.loadErrors r) + 1 =
      s.diskHits + s.compilations + Tally.errors r := by
  have hbefore := h.libraries
  have hregistrations : s.classRegistrations = _ := attempt.sameMemory.classRegistrations
  have hresolved := attempt.returnTypesResolved_eq
  have hattempt := attempt.diskHits_add_compilations
  omega

/-- An attempt that fails. -/
theorem failed (h : Balanced t b.cache) {e : CacheError}
    (attempt : Attempt p b.cache stem load source b.world (.error e) s w) :
    Balanced (t.work (.error e : Except CacheError α)) (b.worked s w).cache where
  classes := h.classes
  registrations := attempt.sameMemory.classRegistrations.trans h.registrations
  loaded := h.loaded
  lookups := attempt.sameMemory.cacheHits ▸ h.lookups
  libraries := Nat.succ.inj (h.libraries_attempted attempt)
  unloadable :=
    Nat.le_trans (Nat.add_le_add_right h.unloadable _) attempt.compilations_of_loadErrors

/-- An attempt at a call that is good for a library: it has a return type. -/
theorem resolved (h : Balanced t b.cache) {a : α}
    (attempt : Attempt p b.cache stem load source b.world (.ok a) s w) :
    Balanced t (b.worked s w).resolved.cache where
  classes := h.classes
  registrations := attempt.sameMemory.classRegistrations.trans h.registrations
  loaded := h.loaded
  lookups := attempt.sameMemory.cacheHits ▸ h.lookups
  libraries := by
    have hbefore : s.returnTypesResolved + s.classRegistrations + t.unloadable + 1 =
        s.diskHits + s.compilations := h.libraries_attempted attempt
    show s.returnTypesResolved + 1 + s.classRegistrations + t.unloadable =
      s.diskHits + s.compilations
    omega
  unloadable := Nat.le_trans h.unloadable attempt.compilations_of_loadErrors

/-- An attempt at a class that is good for a library: it is registered. -/
theorem registered (h : Balanced t b.cache) {a : α}
    (attempt : Attempt p b.cache stem load source b.world (.ok a) s w) {q : String}
    (hnew : b.cache.class? q = none) (d : Binding L) :
    Balanced t ((b.worked s w).registered q d).cache where
  classes := List.nodup_cons.2 ⟨find?_key_eq_none_iff.1 hnew, h.classes⟩
  registrations := congrArg (· + 1)
    (attempt.sameMemory.classRegistrations.trans h.registrations)
  loaded := h.loaded
  lookups := attempt.sameMemory.cacheHits ▸ h.lookups
  libraries := by
    have hbefore : s.returnTypesResolved + s.classRegistrations + t.unloadable + 1 =
        s.diskHits + s.compilations := h.libraries_attempted attempt
    show s.returnTypesResolved + (s.classRegistrations + 1) + t.unloadable =
      s.diskHits + s.compilations
    omega
  unloadable := Nat.le_trans h.unloadable attempt.compilations_of_loadErrors

end

/-- **The books balance behind a class that is asked for.** -/
theorem registering {p : Platform σ L} {name : String} {r : Except CacheError (Binding L)}
    (step : Registering p name b r b') (h : Balanced t b.cache) :
    Balanced (t.work r) b'.cache := by
  cases step with
  | known => exact h
  | failed _ attempt => exact h.failed attempt
  | new hnew attempt => exact h.registered attempt hnew _

/-- **The books balance behind a call that is asked for.** -/
theorem supplying {p : Platform σ L} {key : Key}
    {emit : Context → Except Source.EmitError Source.Unit} {r : Except CacheError (Artifact L)}
    (step : Supplying p key emit b r b') (h : Balanced t b.cache) :
    Balanced (t.lookup r) b'.cache := by
  cases step with
  | hit => exact h.hit
  | failed _ attempt => exact (h.failed attempt).refused
  | unregistered _ attempt _ class_ => exact (registering class_ (h.resolved attempt)).refused
  | plain hnew attempt => exact (h.resolved attempt).supplied hnew _
  | object hnew attempt _ class_ =>
    exact (registering class_ (h.resolved attempt)).supplied
      ((class_.loaded?_eq _).trans hnew) _

end Balanced
end Cache
end Bindery
