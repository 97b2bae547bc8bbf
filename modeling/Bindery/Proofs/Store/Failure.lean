/-
# Failures are not remembered

A call of the cache that fails leaves the memories and the index as they were, and the index file
with them; it may have counted what it did and written files of the stems that it worked on
(`Cache.NoTrace`). Nothing is known about the failed library afterwards, so asking again is a new
attempt: at the disk, then at the compiler.

| what failed | stems it worked on |
| --- | --- |
| a class | that of the class |
| a call | its own |
| a call whose artifact was loaded, but not the class that it returns | its own, that of the class |

A call registers the class of its result before it enters memory itself, and nothing behind that
can fail. So no call fails after it changed a memory or the index.
-/

import Bindery.Proofs.Store.Runs

namespace Bindery

variable {σ L : Type}

/-! ### What is not remembered -/

namespace Happening

/-- A happening loads the library of a call. -/
def Loads (hash : String) (b : Bench σ L) : Happening σ L → Prop
  | .lookup p key emit => key.hash = hash ∧ ∃ a, (exec (Cache.lookup p key emit) b).1 = .ok a
  | .ensureClass _ _ => False
  | .elsewhere _ _ => False

/-- A happening registers a class, as itself or as that of an object that a call returns. -/
def Registers (qualified : String) (b : Bench σ L) : Happening σ L → Prop
  | .lookup p key emit => ∃ a, (exec (Cache.lookup p key emit) b).1 = .ok a ∧
    a.returns.kind = .object ∧ Spelling.normalize a.returns.typeName = qualified
  | .ensureClass p name => Spelling.normalize name = qualified ∧
    ∃ d, (exec (Cache.ensureClass p name) b).1 = .ok d
  | .elsewhere _ _ => False

end Happening

/-- Nothing in a run does something, at the bench at which it happens. -/
def Bench.Never (does : Bench σ L → Happening σ L → Prop) (b : Bench σ L)
    (hs : List (Happening σ L)) : Prop :=
  ∀ pre h post, hs = pre ++ h :: post → ¬ does (b.after pre) h

/-- What holds until something is done holds after a run in which it never is. -/
theorem Bench.Never.induction {does : Bench σ L → Happening σ L → Prop} {P : Bench σ L → Prop}
    (step : ∀ b h, P b → ¬ does b h → P (b.next h)) {b : Bench σ L} {hs : List (Happening σ L)}
    (start : P b) (never : b.Never does hs) : P (b.after hs) := by
  induction hs generalizing b with
  | nil => exact start
  | cons h hs ih =>
    refine ih (step b h start (never [] h hs rfl)) fun pre h' post heq => ?_
    exact never (h :: pre) h' post (by rw [heq]; rfl)

namespace Cache

/-- A hash that is not loaded is loaded only by a call that is answered. -/
theorem Supplying.loaded?_eq_none {p : Platform σ L} {key : Key} {hash : String}
    {emit : Context → Except Source.EmitError Source.Unit} {b b' : Bench σ L}
    {r : Except CacheError (Artifact L)} (h : Supplying p key emit b r b')
    (hnone : b.cache.loaded? hash = none) (hr : key.hash = hash → ∀ a, r ≠ .ok a) :
    b'.cache.loaded? hash = none := by
  have hcons : ∀ (c : Cache L) (a : Artifact L), c.loaded = b.cache.loaded → key.hash ≠ hash →
      ({ c with loaded := (key.hash, a) :: c.loaded } : Cache L).loaded? hash = none := by
    intro c a hc hne
    rw [loaded?_cons, if_neg hne, loaded?, hc]
    exact hnone
  cases h with
  | hit => exact hnone
  | failed => exact hnone
  | unregistered _ _ _ hclass => exact (hclass.loaded?_eq hash).trans hnone
  | @plain a s w => exact hcons (b.worked s w).cache a rfl fun hk => hr hk a rfl
  | @object a _ _ _ b₁ _ _ _ hclass => exact hcons b₁.cache a hclass.loaded fun hk => hr hk a rfl

/-- A class that is not known is registered only when it is answered. -/
theorem Registering.class?_eq_none {p : Platform σ L} {name qualified : String}
    {b b' : Bench σ L} {r : Except CacheError (Binding L)} (h : Registering p name b r b')
    (hnone : b.cache.class? qualified = none)
    (hr : Spelling.normalize name = qualified → ∀ d, r ≠ .ok d) :
    b'.cache.class? qualified = none := by
  cases h with
  | known => exact hnone
  | failed => exact hnone
  | @new d s w =>
    have hne : Spelling.normalize name ≠ qualified := fun hn => hr hn d rfl
    exact (class?_cons (b.worked s w).cache _ _ d).trans ((if_neg hne).trans hnone)

/-- A class that is not known is registered by a call only if that is answered with an object of
the class. -/
theorem Supplying.class?_eq_none {p : Platform σ L} {key : Key} {qualified : String}
    {emit : Context → Except Source.EmitError Source.Unit} {b b' : Bench σ L}
    {r : Except CacheError (Artifact L)} (h : Supplying p key emit b r b')
    (hnone : b.cache.class? qualified = none)
    (hr : ∀ a, r = .ok a → a.returns.kind = .object →
      Spelling.normalize a.returns.typeName ≠ qualified) :
    b'.cache.class? qualified = none := by
  cases h with
  | hit => exact hnone
  | failed => exact hnone
  | unregistered _ _ _ hclass => exact hclass.class?_eq_none hnone fun _ _ => nofun
  | plain => exact hnone
  | object _ _ hkind hclass =>
    exact hclass.class?_eq_none hnone fun hn => absurd hn (hr _ rfl hkind)

theorem loaded?_after_eq_none {b : Bench σ L} {hash : String} {hs : List (Happening σ L)}
    (hnone : b.cache.loaded? hash = none)
    (never : b.Never (fun b h => h.Loads hash b) hs) :
    (b.after hs).cache.loaded? hash = none := by
  refine never.induction (P := fun b => b.cache.loaded? hash = none) (fun b h hb hdoes => ?_) hnone
  cases h with
  | lookup p key emit =>
    refine (supplying_exec p key emit b).loaded?_eq_none hb fun hk a ha => ?_
    exact hdoes ⟨hk, a, ha⟩
  | ensureClass p name =>
    exact ((registering_exec p name b).loaded?_eq hash).trans hb
  | elsewhere => exact hb

theorem class?_after_eq_none {b : Bench σ L} {qualified : String} {hs : List (Happening σ L)}
    (hnone : b.cache.class? qualified = none)
    (never : b.Never (fun b h => h.Registers qualified b) hs) :
    (b.after hs).cache.class? qualified = none := by
  refine never.induction (P := fun b => b.cache.class? qualified = none)
    (fun b h hb hdoes => ?_) hnone
  cases h with
  | lookup p key emit =>
    refine (supplying_exec p key emit b).class?_eq_none hb fun a ha hkind hn => ?_
    exact hdoes ⟨a, ha, hkind, hn⟩
  | ensureClass p name =>
    refine (registering_exec p name b).class?_eq_none hb fun hn d hd => ?_
    exact hdoes ⟨hn, d, hd⟩
  | elsewhere => exact hb

/-! ### What is left of a failure -/

/-- What is left of a call that worked on some stems: what it counted, and files of those stems. -/
structure NoTrace (stems : List String) (b b' : Bench σ L) : Prop where
  memory : b.cache.SameMemory b'.cache
  index : b'.world.files.get? b.cache.indexPath = b.world.files.get? b.cache.indexPath
  files : ∀ path, (∀ stem ∈ stems, path ∉ b.cache.stemFiles stem) →
    b'.world.files.get? path = b.world.files.get? path

/-- A path ends like the name that was joined to it. -/
theorem getLast?_join {dir name : String} {c : Char} (h : name.toList.getLast? = some c) :
    (Path.join dir name).toList.getLast? = some c := by
  unfold Path.join
  split
  · exact h
  · split <;> simp [String.toList_append, List.getLast?_append, List.getLast?_cons, h]

/-- No file of a stem is the index. -/
theorem indexPath_notMem_stemFiles (c : Cache L) (stem : String) :
    c.indexPath ∉ c.stemFiles stem := by
  have hindex : c.indexPath.toList.getLast? = some 'v' := getLast?_join (by decide)
  have hsource : (c.sourcePath stem).toList.getLast? = some 'p' :=
    getLast?_join (by simp [Source.sourceFile, String.toList_append])
  have hartifact : (c.artifactPath stem).toList.getLast? = some 'o' :=
    getLast?_join (by simp [Source.artifactFile, String.toList_append])
  have hstaging : (Files.staging (c.sourcePath stem)).toList.getLast? = some 'p' := by
    simp [Files.staging, String.toList_append]
  simp only [stemFiles, List.mem_cons, List.not_mem_nil, or_false, not_or]
  refine ⟨fun h => ?_, fun h => ?_, fun h => ?_⟩
  · rw [h, hsource] at hindex
    exact absurd hindex (by decide)
  · rw [h, hstaging] at hindex
    exact absurd hindex (by decide)
  · rw [h, hartifact] at hindex
    exact absurd hindex (by decide)

theorem NoTrace.of_files {stems : List String} {b b' : Bench σ L}
    (memory : b.cache.SameMemory b'.cache)
    (files : ∀ path, (∀ stem ∈ stems, path ∉ b.cache.stemFiles stem) →
      b'.world.files.get? path = b.world.files.get? path) : NoTrace stems b b' :=
  ⟨memory, files _ fun stem _ => indexPath_notMem_stemFiles b.cache stem, files⟩

theorem stemFiles_congr {c d : Cache L} (h : c.dir = d.dir) (stem : String) :
    c.stemFiles stem = d.stemFiles stem := by
  simp only [stemFiles, sourcePath, artifactPath, h]

/-- What two calls leave, one after the other. -/
theorem NoTrace.trans {stems stems' : List String} {b₁ b₂ b₃ : Bench σ L}
    (h : NoTrace stems b₁ b₂) (h' : NoTrace stems' b₂ b₃) : NoTrace (stems ++ stems') b₁ b₃ := by
  refine .of_files (h.memory.trans h'.memory) fun path hpath => ?_
  rw [← h.files path fun stem hstem => hpath stem (List.mem_append_left _ hstem)]
  refine h'.files path fun stem hstem => ?_
  rw [stemFiles_congr h.memory.dir]
  exact hpath stem (List.mem_append_right _ hstem)

/-- Counting a type leaves nothing else. -/
theorem NoTrace.resolved {stems : List String} {b b' : Bench σ L} (h : NoTrace stems b b') :
    NoTrace stems b b'.resolved :=
  ⟨⟨h.memory.dir, h.memory.context, h.memory.loaded, h.memory.classes, h.memory.index,
    h.memory.cacheHits, h.memory.classRegistrations, h.memory.constructors, h.memory.kernels⟩,
    h.index, h.files⟩

/-- The stems that a call works on: its own and, if it returns an object, that of the class. -/
def involved (p : Platform σ L) (key : Key)
    (emit : Context → Except Source.EmitError Source.Unit) (b : Bench σ L) : List String :=
  key.hash ::
    match (exec (obtain p key.hash (Load.artifact p key.hash) (emit b.cache.context)) b).1 with
    | .ok a => if a.returns.kind = .object then [classHash a.returns.typeName] else []
    | .error _ => []

theorem keepsFiles_binding (p : Platform σ L) (qualified hash : String) :
    Load.KeepsFiles (Load.binding p qualified hash) := by
  intro path w
  rw [Load.exec_binding]

theorem keepsFiles_artifact (p : Platform σ L) (hash : String) :
    Load.KeepsFiles (Load.artifact p hash) :=
  fun path w => Load.files_exec_artifact p hash path w

/-- An attempt leaves no more than files of its stem, whatever comes of it. -/
theorem noTrace_of_attempt {α : Type} {p : Platform σ L} (hp : p.WritesOnlyOutput) {stem : String}
    {load : String → Load σ L α} (hload : Load.KeepsFiles load)
    {source : Except Source.EmitError Source.Unit} {b : Bench σ L} {r : Except CacheError α}
    {s : Stats} {w : World σ L} (h : Attempt p b.cache stem load source b.world r s w) :
    NoTrace [stem] b (b.worked s w) :=
  .of_files h.sameMemory fun _ hpath =>
    h.get?_files hp hload (hpath stem (List.mem_singleton_self stem))

/-- A class that is not come by leaves a failed attempt. -/
theorem noTrace_of_registering {p : Platform σ L} (hp : p.WritesOnlyOutput) {name : String}
    {b b' : Bench σ L} {e : CacheError} (h : Registering p name b (.error e) b') :
    NoTrace [classHash name] b b' := by
  cases h with
  | failed _ attempt => exact noTrace_of_attempt hp (keepsFiles_binding p _ _) attempt

/-- A call that fails leaves a failed attempt at it, or a good one and a failed one at the class of
its result. -/
theorem noTrace_of_lookup {p : Platform σ L} (hp : p.WritesOnlyOutput) {key : Key}
    {emit : Context → Except Source.EmitError Source.Unit} {b b' : Bench σ L} {e : CacheError}
    (h : exec (lookup p key emit) b = (.error e, b')) : NoTrace (involved p key emit b) b b' := by
  cases hloaded : b.cache.loaded? key.hash with
  | some a =>
    rw [exec_lookup_of_loaded? hloaded] at h
    exact absurd h ok_ne_error
  | none =>
    obtain ⟨r, s, w, attempt, hobtain⟩ := attempt_obtain p key.hash (Load.artifact p key.hash)
      (emit b.cache.context) b
    have hown := noTrace_of_attempt hp (keepsFiles_artifact p key.hash) attempt
    rw [exec_lookup_of_none hloaded, hobtain] at h
    rw [involved, hobtain]
    cases r with
    | error e' =>
      obtain rfl := congrArg Prod.snd h
      exact hown
    | ok a =>
      by_cases hkind : a.returns.kind = .object
      · simp only [if_pos hkind] at h ⊢
        rcases hclass : exec (ensureClass p a.returns.typeName) (b.worked s w).resolved with
          ⟨e' | d, b₁⟩
        · rw [hclass] at h
          obtain rfl := congrArg Prod.snd h
          exact hown.resolved.trans (noTrace_of_registering hp (registering_of_exec hclass))
        · rw [hclass] at h
          exact absurd h ok_ne_error
      · simp only [if_neg hkind] at h
        exact absurd h ok_ne_error

/-- A call is not answered from memory: an attempt is made, its error is the answer, and there is
no other answer than what it came by. -/
def TriesCall (p : Platform σ L) (key : Key)
    (emit : Context → Except Source.EmitError Source.Unit) (b : Bench σ L) : Prop :=
  ∃ r s w, CallAttempt p key emit b r s w ∧
    (∀ e, r = .error e → exec (lookup p key emit) b = (.error e, b.worked s w)) ∧
    ∀ a, (exec (lookup p key emit) b).1 = .ok a → r = .ok a

/-- A class is not answered from memory: an attempt is made, and what comes of it is the answer. -/
def TriesClass (p : Platform σ L) (name : String) (b : Bench σ L) : Prop :=
  ∃ r s w, ClassAttempt p name b r s w ∧ (exec (ensureClass p name) b).1 = r

theorem triesCall_of_none {p : Platform σ L} {key : Key}
    {emit : Context → Except Source.EmitError Source.Unit} {b : Bench σ L}
    (h : b.cache.loaded? key.hash = none) : TriesCall p key emit b := by
  obtain ⟨r, s, w, attempt, hobtain⟩ := attempt_obtain p key.hash (Load.artifact p key.hash)
    (emit b.cache.context) b
  have hlookup : exec (lookup p key emit) b = _ := exec_lookup_of_none h
  rw [hobtain] at hlookup
  refine ⟨r, s, w, attempt, ?_, ?_⟩
  · rintro e rfl
    exact hlookup
  · intro a ha
    rw [hlookup] at ha
    cases r with
    | error e => exact absurd ha nofun
    | ok a' =>
      simp only at ha
      split at ha
      · split at ha
        · exact ha
        · exact absurd ha nofun
      · exact ha

theorem triesClass_of_none {p : Platform σ L} {name : String} {b : Bench σ L}
    (h : b.cache.class? (Spelling.normalize name) = none) : TriesClass p name b := by
  obtain ⟨r, s, w, attempt, hobtain⟩ := attempt_obtain p (classHash name)
    (Load.binding p (Spelling.normalize name) (classHash name))
    (.ok (registration b.cache.context (Spelling.normalize name))) b
  have hclass := exec_ensureClass_of_none (p := p) h
  rw [hobtain] at hclass
  refine ⟨r, s, w, attempt, ?_⟩
  rw [hclass]
  cases r <;> rfl

/-- **A failure is not remembered.** A call that fails leaves the memories, the index and its file
as they were and touches no file but those of the stems that it worked on. As long as nothing
loads or registers what failed, asking for it again makes a new attempt. -/
theorem failure_leaves_noTrace {p : Platform σ L} (hp : p.WritesOnlyOutput) (b : Bench σ L) :
    (∀ key emit e b', exec (lookup p key emit) b = (.error e, b') →
      NoTrace (involved p key emit b) b b' ∧
      ∀ more, b'.Never (Happening.Loads key.hash) more →
        ∀ p' key' emit', key'.hash = key.hash → TriesCall p' key' emit' (b'.after more)) ∧
    ∀ name e b', exec (ensureClass p name) b = (.error e, b') →
      NoTrace [classHash name] b b' ∧
      ∀ more, b'.Never (Happening.Registers (Spelling.normalize name)) more →
        ∀ p' name', Spelling.normalize name' = Spelling.normalize name →
          TriesClass p' name' (b'.after more) := by
  constructor
  · intro key emit e b' h
    have htrace := noTrace_of_lookup hp h
    refine ⟨htrace, fun more never p' key' emit' hkey => triesCall_of_none ?_⟩
    rw [hkey]
    refine loaded?_after_eq_none ?_ never
    rw [loaded?, htrace.memory.loaded]
    cases hloaded : b.cache.loaded? key.hash with
    | none => exact hloaded
    | some a =>
      rw [exec_lookup_of_loaded? hloaded] at h
      exact absurd h ok_ne_error
  · intro name e b' h
    have htrace := noTrace_of_registering hp (registering_of_exec h)
    refine ⟨htrace, fun more never p' name' hname => triesClass_of_none ?_⟩
    rw [hname]
    refine class?_after_eq_none ?_ never
    rw [class?, htrace.memory.classes]
    cases hclass : b.cache.class? (Spelling.normalize name) with
    | none => exact hclass
    | some d =>
      rw [exec_ensureClass_of_class? hclass] at h
      exact absurd h ok_ne_error

/-- A scripted compiler writes nothing but the library that is asked for. -/
theorem writesOnlyOutput_script (script : Script) : (Script.platform script).WritesOnlyOutput := by
  intro job w path hpath
  show (script.compile job w).2.files.get? path = w.files.get? path
  simp only [Script.compile, bind, StateT.bind, get, getThe, MonadStateOf.get, StateT.get, pure]
  cases script.part? (Script.stemOf job.target) with
  | none => rfl
  | some part =>
    dsimp only
    cases part.failure? (w.outside.attempts.count (Script.stemOf job.target)) with
    | some diagnostics => rfl
    | none =>
      dsimp only
      cases part.product.file? (Script.stemOf job.target) with
      | none => rfl
      | some file => exact (Files.get?_put ..).trans (if_neg hpath.symm)

/-- The hypotheses of `failure_leaves_noTrace` are satisfiable: a call that cannot be compiled fails
at a cache that was just opened, leaves no trace, and is tried again. -/
theorem failure_leaves_noTrace_fresh : (Script.platform {}).WritesOnlyOutput ∧
    ∃ e b', exec (lookup (Script.platform {}) ⟨"f_0", "f()"⟩ fun _ => .ok {}) (fresh {}) =
      (.error e, b') ∧ NoTrace ["f_0"] (fresh {}) b' ∧
      TriesCall (Script.platform {}) ⟨"f_0", "f()"⟩ (fun _ => .ok {}) b' := by
  refine ⟨writesOnlyOutput_script {}, .build ⟨"f_0.so", Script.unscripted⟩, _, rfl, ?_⟩
  obtain ⟨htrace, htries⟩ := (failure_leaves_noTrace (writesOnlyOutput_script {}) (fresh {})).1
    ⟨"f_0", "f()"⟩ (fun _ => .ok {}) (.build ⟨"f_0.so", Script.unscripted⟩) _ rfl
  exact ⟨htrace, htries [] (fun pre h post heq => by simp at heq) _ _ _ rfl⟩

end Cache
end Bindery
