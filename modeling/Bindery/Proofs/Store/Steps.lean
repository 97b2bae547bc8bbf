/-
# What a call of the cache can do

A call of the cache either finds what it asks for in memory or makes one attempt at it
(`Proofs/Store/Attempt`). What it can do is listed once, here: for a class by `Registering`, for a
call by `Supplying`, of which one case contains a `Registering`.

| class | result | memory |
| --- | --- | --- |
| `known` | the binding | as before |
| `failed` | the attempt's error | as before |
| `new` | the attempt's binding | class and index entry are new |

| call | result | memory |
| --- | --- | --- |
| `hit` | the artifact | as before |
| `failed` | the attempt's error | as before |
| `unregistered` | the error of registering the class of the result | as before |
| `plain` | the attempt's artifact | artifact and index entry are new |
| `object` | the attempt's artifact | so is the class, unless it was known |
-/

import Bindery.Proofs.Store.Attempt

namespace Bindery

variable {σ L : Type}

/-! ### Benches after a step -/

namespace Bench

/-- The bench after something was counted. -/
def count (b : Bench σ L) (f : Stats → Stats) : Bench σ L :=
  { b with cache := { b.cache with stats := f b.cache.stats } }

/-- The bench after a call was answered from memory. -/
def hit (b : Bench σ L) : Bench σ L := b.count fun s => { s with cacheHits := s.cacheHits + 1 }

/-- The bench after the type that a call returns became known. -/
def resolved (b : Bench σ L) : Bench σ L :=
  b.count fun s => { s with returnTypesResolved := s.returnTypesResolved + 1 }

/-- The bench after an entry was put into the index and the index saved. -/
def recorded (b : Bench σ L) (e : IndexEntry) : Bench σ L :=
  let index := (b.cache.index.upsert e).sort
  let files := b.world.files.save b.cache.indexPath (Archive.write index)
  { b with cache.index := index, world.files := files }

/-- The bench after the library of a class was loaded. -/
def registered (b : Bench σ L) (qualified : String) (c : Binding L) : Bench σ L :=
  let key := Key.ofClass qualified
  let b := (b.count fun s => { s with classRegistrations := s.classRegistrations + 1 }).recorded
    ⟨key.hash, key.signature, IndexEntry.registration, qualified⟩
  { b with cache := { b.cache with classes := (qualified, c) :: b.cache.classes } }

/-- The bench after the library of a call was loaded, and its class where there is one. -/
def supplied (b : Bench σ L) (key : Key) (a : Artifact L) : Bench σ L :=
  let b := b.recorded ⟨key.hash, key.signature, a.returns.kind.code, a.returns.typeName⟩
  { b with cache := { b.cache with loaded := (key.hash, a) :: b.cache.loaded } }

end Bench

namespace Cache

/-- What is found among the loaded calls after one more. -/
theorem loaded?_cons (c : Cache L) (hash other : String) (a : Artifact L) :
    ({ c with loaded := (hash, a) :: c.loaded } : Cache L).loaded? other =
      if hash = other then some a else c.loaded? other := by
  by_cases h : hash = other <;> simp [loaded?, h]

/-- What is found among the classes after one more. -/
theorem class?_cons (c : Cache L) (qualified other : String) (d : Binding L) :
    ({ c with classes := (qualified, d) :: c.classes } : Cache L).class? other =
      if qualified = other then some d else c.class? other := by
  by_cases h : qualified = other <;> simp [class?, h]

/-- A call that is loaded after one more is that one or was loaded before. -/
theorem cases_of_loaded?_supplied {b : Bench σ L} {key : Key} {hash : String} {a a' : Artifact L}
    (h : (b.supplied key a).cache.loaded? hash = some a') :
    hash = key.hash ∧ a' = a ∨ key.hash ≠ hash ∧ b.cache.loaded? hash = some a' := by
  have hcons := (loaded?_cons b.cache key.hash hash a).symm.trans h
  by_cases hhash : key.hash = hash
  · rw [if_pos hhash] at hcons
    exact .inl ⟨hhash.symm, (Option.some.inj hcons).symm⟩
  · rw [if_neg hhash] at hcons
    exact .inr ⟨hhash, hcons⟩

/-- A class that is known after one more is that one or was known before. -/
theorem cases_of_class?_registered {b : Bench σ L} {q r : String} {d d' : Binding L}
    (h : (b.registered q d).cache.class? r = some d') :
    r = q ∧ d' = d ∨ q ≠ r ∧ b.cache.class? r = some d' := by
  have hcons := (class?_cons b.cache q r d).symm.trans h
  by_cases hr : q = r
  · rw [if_pos hr] at hcons
    exact .inl ⟨hr.symm, (Option.some.inj hcons).symm⟩
  · rw [if_neg hr] at hcons
    exact .inr ⟨hr, hcons⟩

/-- The hash under which the class of a name is registered. -/
def classHash (name : String) : String := (Key.ofClass (Spelling.normalize name)).hash

/-- An attempt at the library of a class. -/
abbrev ClassAttempt (p : Platform σ L) (name : String) (b : Bench σ L) :
    Except CacheError (Binding L) → Stats → World σ L → Prop :=
  Attempt p b.cache (classHash name) (Load.binding p (Spelling.normalize name) (classHash name))
    (.ok (registration b.cache.context (Spelling.normalize name))) b.world

/-- An attempt at the library of a call. -/
abbrev CallAttempt (p : Platform σ L) (key : Key)
    (emit : Context → Except Source.EmitError Source.Unit) (b : Bench σ L) :
    Except CacheError (Artifact L) → Stats → World σ L → Prop :=
  Attempt p b.cache key.hash (Load.artifact p key.hash) (emit b.cache.context) b.world

/-- What asking for a class can give, and the bench after it. -/
inductive Registering (p : Platform σ L) (name : String) (b : Bench σ L) :
    Except CacheError (Binding L) → Bench σ L → Prop
  | known {c} (h : b.cache.class? (Spelling.normalize name) = some c) :
    Registering p name b (.ok c) b
  | failed {e s w} (h : b.cache.class? (Spelling.normalize name) = none)
    (attempt : ClassAttempt p name b (.error e) s w) :
    Registering p name b (.error e) (b.worked s w)
  | new {c s w} (h : b.cache.class? (Spelling.normalize name) = none)
    (attempt : ClassAttempt p name b (.ok c) s w) :
    Registering p name b (.ok c) ((b.worked s w).registered (Spelling.normalize name) c)

/-- What asking for a call can give, and the bench after it. -/
inductive Supplying (p : Platform σ L) (key : Key)
    (emit : Context → Except Source.EmitError Source.Unit) (b : Bench σ L) :
    Except CacheError (Artifact L) → Bench σ L → Prop
  | hit {a} (h : b.cache.loaded? key.hash = some a) : Supplying p key emit b (.ok a) b.hit
  | failed {e s w} (h : b.cache.loaded? key.hash = none)
    (attempt : CallAttempt p key emit b (.error e) s w) :
    Supplying p key emit b (.error e) (b.worked s w)
  | unregistered {a s w e b'} (h : b.cache.loaded? key.hash = none)
    (attempt : CallAttempt p key emit b (.ok a) s w) (hkind : a.returns.kind = .object)
    (class_ : Registering p a.returns.typeName (b.worked s w).resolved (.error e) b') :
    Supplying p key emit b (.error e) b'
  | plain {a s w} (h : b.cache.loaded? key.hash = none)
    (attempt : CallAttempt p key emit b (.ok a) s w) (hkind : a.returns.kind ≠ .object) :
    Supplying p key emit b (.ok a) ((b.worked s w).resolved.supplied key a)
  | object {a s w c b'} (h : b.cache.loaded? key.hash = none)
    (attempt : CallAttempt p key emit b (.ok a) s w) (hkind : a.returns.kind = .object)
    (class_ : Registering p a.returns.typeName (b.worked s w).resolved (.ok c) b') :
    Supplying p key emit b (.ok a) (b'.supplied key a)

/-! ### The calls do nothing else -/

theorem exec_ensureClass_of_class? {p : Platform σ L} {name : String} {b : Bench σ L}
    {c : Binding L} (h : b.cache.class? (Spelling.normalize name) = some c) :
    exec (ensureClass p name) b = (.ok c, b) := by
  rw [ensureClass, exec_bind_ok (Action.exec_cache b), h]
  rfl

theorem exec_lookup_of_loaded? {p : Platform σ L} {key : Key}
    {emit : Context → Except Source.EmitError Source.Unit} {b : Bench σ L} {a : Artifact L}
    (h : b.cache.loaded? key.hash = some a) : exec (lookup p key emit) b = (.ok a, b.hit) := by
  rw [lookup, exec_bind_ok (Action.exec_cache b), h]
  rfl

/-- A class that is not known is come by, then registered. -/
theorem exec_ensureClass_of_none {p : Platform σ L} {name : String} {b : Bench σ L}
    (h : b.cache.class? (Spelling.normalize name) = none) :
    exec (ensureClass p name) b =
      match exec (obtain p (classHash name)
        (Load.binding p (Spelling.normalize name) (classHash name))
        (.ok (registration b.cache.context (Spelling.normalize name)))) b with
      | (.ok c, b') => (.ok c, b'.registered (Spelling.normalize name) c)
      | (.error e, b') => (.error e, b') := by
  rw [ensureClass, exec_bind_ok (Action.exec_cache b), h]
  rcases hobtain : exec (obtain p (classHash name)
    (Load.binding p (Spelling.normalize name) (classHash name))
    (.ok (registration b.cache.context (Spelling.normalize name)))) b with ⟨e | c, b'⟩
  · exact exec_bind_error hobtain
  · exact exec_bind_ok hobtain

/-- A call that is not loaded is come by, then its class if it returns an object. -/
theorem exec_lookup_of_none {p : Platform σ L} {key : Key}
    {emit : Context → Except Source.EmitError Source.Unit} {b : Bench σ L}
    (h : b.cache.loaded? key.hash = none) :
    exec (lookup p key emit) b =
      match exec (obtain p key.hash (Load.artifact p key.hash) (emit b.cache.context)) b with
      | (.ok a, b') =>
        if a.returns.kind = .object then
          match exec (ensureClass p a.returns.typeName) b'.resolved with
          | (.ok _, b'') => (.ok a, b''.supplied key a)
          | (.error e, b'') => (.error e, b'')
        else (.ok a, b'.resolved.supplied key a)
      | (.error e, b') => (.error e, b') := by
  rw [lookup, exec_bind_ok (Action.exec_cache b), h]
  rcases hobtain : exec (obtain p key.hash (Load.artifact p key.hash) (emit b.cache.context)) b with
    ⟨e | a, b'⟩
  · exact exec_bind_error hobtain
  · refine (exec_bind_ok hobtain).trans ?_
    refine (exec_bind_ok (Action.exec_count _ b')).trans ?_
    by_cases hkind : a.returns.kind = .object
    · simp only [if_pos hkind]
      have hdiscard := exec_discard (ensureClass p a.returns.typeName) b'.resolved
      rcases hclass : exec (ensureClass p a.returns.typeName) b'.resolved with ⟨e | c, b''⟩
      · rw [hclass] at hdiscard
        exact exec_bind_error hdiscard
      · rw [hclass] at hdiscard
        exact exec_bind_ok hdiscard
    · simp only [if_neg hkind]
      rfl

/-- **Asking for a class does what is listed.** -/
theorem registering_exec (p : Platform σ L) (name : String) (b : Bench σ L) :
    Registering p name b (exec (ensureClass p name) b).1 (exec (ensureClass p name) b).2 := by
  cases h : b.cache.class? (Spelling.normalize name) with
  | some c =>
    rw [exec_ensureClass_of_class? h]
    exact .known h
  | none =>
    obtain ⟨r, s, w, attempt, hobtain⟩ := attempt_obtain p (classHash name)
      (Load.binding p (Spelling.normalize name) (classHash name))
      (.ok (registration b.cache.context (Spelling.normalize name))) b
    rw [exec_ensureClass_of_none h, hobtain]
    cases r with
    | error e => exact .failed h attempt
    | ok c => exact .new h attempt

theorem registering_of_exec {p : Platform σ L} {name : String} {b b' : Bench σ L}
    {r : Except CacheError (Binding L)} (h : exec (ensureClass p name) b = (r, b')) :
    Registering p name b r b' := by
  simpa only [h] using registering_exec p name b

/-- **Asking for a call does what is listed.** -/
theorem supplying_exec (p : Platform σ L) (key : Key)
    (emit : Context → Except Source.EmitError Source.Unit) (b : Bench σ L) :
    Supplying p key emit b (exec (lookup p key emit) b).1 (exec (lookup p key emit) b).2 := by
  cases h : b.cache.loaded? key.hash with
  | some a =>
    rw [exec_lookup_of_loaded? h]
    exact .hit h
  | none =>
    obtain ⟨r, s, w, attempt, hobtain⟩ := attempt_obtain p key.hash (Load.artifact p key.hash)
      (emit b.cache.context) b
    rw [exec_lookup_of_none h, hobtain]
    cases r with
    | error e => exact .failed h attempt
    | ok a =>
      by_cases hkind : a.returns.kind = .object
      · simp only [if_pos hkind]
        rcases hclass : exec (ensureClass p a.returns.typeName) (b.worked s w).resolved with
          ⟨e | c, b'⟩
        · exact .unregistered h attempt hkind (registering_of_exec hclass)
        · exact .object h attempt hkind (registering_of_exec hclass)
      · simp only [if_neg hkind]
        exact .plain h attempt hkind

theorem supplying_of_exec {p : Platform σ L} {key : Key}
    {emit : Context → Except Source.EmitError Source.Unit} {b b' : Bench σ L}
    {r : Except CacheError (Artifact L)} (h : exec (lookup p key emit) b = (r, b')) :
    Supplying p key emit b r b' := by
  simpa only [h] using supplying_exec p key emit b

end Cache
end Bindery
