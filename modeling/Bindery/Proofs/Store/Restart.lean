/-
# A warm restart

A second cache that is opened over the build directory of a first one finds there all that the
first has in memory (`Cache.Backed`). So it answers whatever the first answered, in any order, with
the same artifacts and bindings, whatever its emitters and its compiler would do
(`Cache.warm_restart`). While it asks for nothing else, each library it loads is a disk hit, it
compiles nothing, and recording an entry puts it where it already is, so the index file stays as it
was.

| second cache | because |
| --- | --- |
| finds the library of each call and class of the first | the first never overwrites what it uses |
| loads it as the same | loading depends on the library alone |
| knows the class of each object that a call returns | the first registered it before the call |
| leaves the index as it was | its entries are there, in order |

The context of the second cache plays no part in this. That the index is read back takes that its
file is not too large for its format (`Archive.Fits`).
-/

import Bindery.Proofs.Store.Archive
import Bindery.Proofs.Store.Backing

namespace Bindery

variable {σ σ' L α : Type}

/-- A happening asks for what a cache has in memory: for a call by its key, for a class by any
spelling of its name. Anything else leaves files and counts of libraries alone. -/
def Happening.Again (V : Vocabulary) (ℓ : Loader L) (c : Cache L) : Happening σ L → Prop
  | .lookup p key _ => p.LoadsAs ℓ ∧ (∃ s, V.calls s ∧ key = Key.ofSignature s) ∧
    ∃ a, c.loaded? key.hash = some a
  | .ensureClass p name => p.LoadsAs ℓ ∧ ∃ d, c.class? (Spelling.normalize name) = some d
  | .elsewhere stats world => (∀ s, (stats s).compilations = s.compilations ∧
      (stats s).failedCompilations = s.failedCompilations ∧
      (stats s).compileNanos = s.compileNanos ∧ (stats s).diskHits = s.diskHits) ∧
    ∀ w, (world w).files = w.files

/-- A platform with another compiler. -/
def Platform.compilingBy (p : Platform σ L) (compile : Job → StateM (World σ L) Compiled) :
    Platform σ L := { p with compile }

/-- The bench after a library was taken from disk. -/
def Bench.fromDisk (b : Bench σ L) (w : World σ L) : Bench σ L :=
  b.worked { b.cache.stats with diskHits := b.cache.stats.diskHits + 1 } w

namespace Cache

/-- A cache at work has got everything from the build directory that another left behind, and
left it as it was. It has loaded `pending` libraries more than it remembers. -/
structure Follows (first : Bench σ L) (pending : Nat) (b : Bench σ' L) : Prop where
  dir : b.cache.dir = first.cache.dir
  beyond : Files.SameBeyond first.cache.dir first.world.files b.world.files
  libraries : ∀ stem, b.world.files.get? (first.cache.artifactPath stem) =
    first.world.files.get? (first.cache.artifactPath stem)
  loaded : ∀ hash a, b.cache.loaded? hash = some a → first.cache.loaded? hash = some a
  classes : ∀ q d, b.cache.class? q = some d → first.cache.class? q = some d
  compilations : b.cache.stats.compilations = 0
  failedCompilations : b.cache.stats.failedCompilations = 0
  compileNanos : b.cache.stats.compileNanos = 0
  diskHits : b.cache.stats.diskHits = b.cache.loaded.length + b.cache.classes.length + pending
  index : Archive.Fits first.cache.index → first.Saved → first.blocked = false →
    b.cache.index = first.cache.index
  file : Archive.Fits first.cache.index →
    b.world.files.get? first.cache.indexPath = first.world.files.get? first.cache.indexPath

namespace Follows

variable {V : Vocabulary} {ℓ : Loader L} {first : Bench σ L} {b b' : Bench σ' L} {n : Nat}

/-- A library that the first cache can use can be used by the second. -/
theorem usable (h : Follows first n b) {stem : String} {read : String → L → Option α} {a : α}
    (husable : first.cache.Usable first.world.files stem read a) :
    b.cache.Usable b.world.files stem read a :=
  husable.congr h.dir (h.libraries stem)

theorem artifactPath_eq (h : Follows first n b) (stem : String) :
    b.cache.artifactPath stem = first.cache.artifactPath stem := by
  rw [artifactPath, artifactPath, h.dir]

theorem indexPath_eq (h : Follows first n b) : b.cache.indexPath = first.cache.indexPath := by
  rw [indexPath, indexPath, h.dir]

/-- Counting anything else leaves this alone. -/
theorem count (h : Follows first n b) {f : Stats → Stats}
    (hf : ∀ s, (f s).compilations = s.compilations ∧
      (f s).failedCompilations = s.failedCompilations ∧
      (f s).compileNanos = s.compileNanos ∧ (f s).diskHits = s.diskHits) :
    Follows first n (b.count f) := by
  obtain ⟨hcompilations, hfailed, hnanos, hdisk⟩ := hf b.cache.stats
  exact ⟨h.dir, h.beyond, h.libraries, h.loaded, h.classes, hcompilations.trans h.compilations,
    hfailed.trans h.failedCompilations, hnanos.trans h.compileNanos, hdisk.trans h.diskHits,
    h.index, h.file⟩

theorem resolved (h : Follows first n b) : Follows first n b.resolved :=
  h.count fun _ => ⟨rfl, rfl, rfl, rfl⟩

/-- Taking a library from disk makes one more that is not remembered yet. -/
theorem fromDisk (h : Follows first n b) {w : World σ' L} (hfiles : w.files = b.world.files) :
    Follows first (n + 1) (b.fromDisk w) := by
  constructor
  · exact h.dir
  · exact hfiles.symm ▸ h.beyond
  · exact hfiles.symm ▸ h.libraries
  · exact h.loaded
  · exact h.classes
  · exact h.compilations
  · exact h.failedCompilations
  · exact h.compileNanos
  · exact congrArg (· + 1) h.diskHits
  · exact h.index
  · exact hfiles.symm ▸ h.file

/-- Recording an entry that the first index has leaves index and file as they were. -/
theorem recorded (h : Follows first n b) {e : IndexEntry} (hsaved : first.Saved)
    (hentry : first.cache.index.get? e.hash = some e) : Follows first n (b.recorded e) := by
  have hbeyond := sameBeyond_recorded b e
  rw [h.dir] at hbeyond
  have hindex : ∀ index : Index, index = first.cache.index →
      (index.upsert e).sort = first.cache.index := by
    rintro index rfl
    rw [Index.upsert_of_get? hentry, Index.sort_of_sorted hsaved.sorted]
  have hblocked : b.world.files.blocked b.cache.indexPath = first.blocked := by
    rw [h.indexPath_eq]
    exact h.beyond.blocked isName_indexFile
  constructor
  · exact h.dir
  · exact h.beyond.trans hbeyond
  · intro stem
    have hlibrary := (recorded_frame b e).1 stem
    rw [h.artifactPath_eq] at hlibrary
    exact hlibrary.trans (h.libraries stem)
  · exact h.loaded
  · exact h.classes
  · exact h.compilations
  · exact h.failedCompilations
  · exact h.compileNanos
  · exact h.diskHits
  · exact fun hfits hfirst hfree => hindex _ (h.index hfits hfirst hfree)
  · intro hfits
    have hsave : (b.recorded e).world.files.get? b.cache.indexPath = _ :=
      Files.get?_save_self b.world.files isName_indexFile _
    rw [show Path.join b.cache.dir indexFile = b.cache.indexPath from rfl, hblocked,
      h.indexPath_eq] at hsave
    refine hsave.trans ?_
    by_cases hfree : first.blocked = true
    · rw [if_pos hfree]
      exact h.file hfits
    · have hfree' : first.blocked = false := by simpa using hfree
      rw [if_neg hfree, hindex _ (h.index hfits hsaved hfree'), hsaved.file hfree']

/-- A class that the first cache knows is registered from its library. -/
theorem registered (h : Follows first (n + 1) b) {q : String} {d : Binding L}
    (hbacked : Backed V ℓ first) (hknown : first.cache.class? q = some d) :
    Follows first n (b.registered q d) := by
  obtain ⟨-, -, hentry⟩ := hbacked.classes q d hknown
  have hsaved := hbacked.saved (.inr (Backed.classes_ne_nil hknown))
  have hcount := h.count
    (f := fun s => { s with classRegistrations := s.classRegistrations + 1 })
    fun _ => ⟨rfl, rfl, rfl, rfl⟩
  have hrecorded := hcount.recorded (e := classEntry q) hsaved hentry
  refine ⟨hrecorded.dir, hrecorded.beyond, hrecorded.libraries, hrecorded.loaded, ?_,
    hrecorded.compilations, hrecorded.failedCompilations, hrecorded.compileNanos, ?_,
    hrecorded.index, hrecorded.file⟩
  · intro r d' hd'
    rcases cases_of_class?_registered hd' with ⟨rfl, rfl⟩ | ⟨-, hbefore⟩
    · exact hknown
    · exact h.classes r d' hbefore
  · have hdisk := hrecorded.diskHits
    show _ = b.cache.loaded.length + (b.cache.classes.length + 1) + n
    rw [show b.cache.loaded.length + (b.cache.classes.length + 1) + n =
      b.cache.loaded.length + b.cache.classes.length + (n + 1) by omega]
    exact hdisk

/-- A call that the first cache has is supplied from its library. -/
theorem supplied (h : Follows first (n + 1) b) {s : String} {a : Artifact L}
    (hbacked : Backed V ℓ first) (hs : V.calls s)
    (hknown : first.cache.loaded? (Key.hashOf s) = some a) :
    Follows first n (b.supplied (Key.ofSignature s) a) := by
  obtain ⟨t, ht, hhash, -, hentry⟩ := hbacked.calls _ a hknown
  obtain rfl := V.calls_injective hs ht hhash
  have hsaved := hbacked.saved (.inl (Backed.loaded_ne_nil hknown))
  have hrecorded := h.recorded (e := callEntry (Key.ofSignature s) a) hsaved hentry
  refine ⟨hrecorded.dir, hrecorded.beyond, hrecorded.libraries, ?_, hrecorded.classes,
    hrecorded.compilations, hrecorded.failedCompilations, hrecorded.compileNanos, ?_,
    hrecorded.index, hrecorded.file⟩
  · intro hash a' ha'
    rcases cases_of_loaded?_supplied ha' with ⟨rfl, rfl⟩ | ⟨-, hbefore⟩
    · exact hknown
    · exact h.loaded hash a' hbefore
  · have hdisk := hrecorded.diskHits
    show _ = (b.cache.loaded.length + 1) + b.cache.classes.length + n
    rw [show (b.cache.loaded.length + 1) + b.cache.classes.length + n =
      b.cache.loaded.length + b.cache.classes.length + (n + 1) by omega]
    exact hdisk

/-- Asking for a class that the first cache knows gives the same binding. -/
theorem registering {p : Platform σ' L} {name : String} {r : Except CacheError (Binding L)}
    (step : Registering p name b r b') (h : Follows first n b) (hbacked : Backed V ℓ first)
    (hℓ : p.LoadsAs ℓ) {d : Binding L}
    (hknown : first.cache.class? (Spelling.normalize name) = some d) :
    r = .ok d ∧ Follows first n b' := by
  have hattempt : ∀ {r s w}, ClassAttempt p name b r s w →
      r = .ok d ∧ Follows first (n + 1) (b.worked s w) := by
    intro r s w attempt
    obtain ⟨-, husable, -⟩ := hbacked.classes _ d hknown
    obtain ⟨hr, rfl, hfiles⟩ := attempt.eq_of_usable (Load.reads_binding hℓ _ _) (h.usable husable)
    exact ⟨hr, h.fromDisk hfiles⟩
  cases step with
  | @known d' hd' =>
    have heq := (h.classes _ d' hd').symm.trans hknown
    exact ⟨congrArg Except.ok (Option.some.inj heq), h⟩
  | failed _ attempt => exact absurd (hattempt attempt).1 nofun
  | @new d' s w _ attempt =>
    obtain ⟨hr, hworked⟩ := hattempt attempt
    obtain rfl := Except.ok.inj hr
    exact ⟨rfl, hworked.registered hbacked hknown⟩

/-- Asking for a call that the first cache has gives the same artifact. -/
theorem supplying {p : Platform σ' L} {s : String}
    {emit : Context → Except Source.EmitError Source.Unit} {r : Except CacheError (Artifact L)}
    (step : Supplying p (Key.ofSignature s) emit b r b') (h : Follows first n b)
    (hbacked : Backed V ℓ first) (hℓ : p.LoadsAs ℓ) (hs : V.calls s) {a : Artifact L}
    (hknown : first.cache.loaded? (Key.hashOf s) = some a) :
    r = .ok a ∧ Follows first n b' := by
  have hattempt : ∀ {r s' w}, CallAttempt p (Key.ofSignature s) emit b r s' w →
      r = .ok a ∧ Follows first (n + 1) (b.worked s' w).resolved := by
    intro r s' w attempt
    obtain ⟨t, -, -, husable, -⟩ := hbacked.calls _ a hknown
    obtain ⟨hr, rfl, hfiles⟩ := attempt.eq_of_usable (Load.reads_artifact hℓ _) (h.usable husable)
    exact ⟨hr, (h.fromDisk hfiles).resolved⟩
  cases step with
  | @hit a' ha' =>
    have heq := (h.loaded _ a' ha').symm.trans hknown
    exact ⟨congrArg Except.ok (Option.some.inj heq), h.count fun _ => ⟨rfl, rfl, rfl, rfl⟩⟩
  | failed _ attempt => exact absurd (hattempt attempt).1 nofun
  | unregistered _ attempt hkind hclass =>
    obtain ⟨hr, hresolved⟩ := hattempt attempt
    obtain rfl := Except.ok.inj hr
    obtain ⟨d, hd⟩ := hbacked.returned _ _ hknown hkind
    exact absurd (registering hclass hresolved hbacked hℓ hd).1 nofun
  | plain _ attempt _ =>
    obtain ⟨hr, hresolved⟩ := hattempt attempt
    obtain rfl := Except.ok.inj hr
    exact ⟨rfl, hresolved.supplied hbacked hs hknown⟩
  | object _ attempt hkind hclass =>
    obtain ⟨hr, hresolved⟩ := hattempt attempt
    obtain rfl := Except.ok.inj hr
    obtain ⟨d, hd⟩ := hbacked.returned _ _ hknown hkind
    exact ⟨rfl, (registering hclass hresolved hbacked hℓ hd).2.supplied hbacked hs hknown⟩

/-- **One happening that asks again leaves the build directory as it was.** -/
theorem next (h : Follows first n b) (hbacked : Backed V ℓ first) {happening : Happening σ' L}
    (again : happening.Again V ℓ first.cache) : Follows first n (b.next happening) := by
  cases happening with
  | lookup p key emit =>
    obtain ⟨hℓ, ⟨s, hs, rfl⟩, a, ha⟩ := again
    exact (supplying (supplying_exec p _ emit b) h hbacked hℓ hs ha).2
  | ensureClass p name =>
    obtain ⟨hℓ, d, hd⟩ := again
    exact (registering (registering_exec p name b) h hbacked hℓ hd).2
  | elsewhere stats world =>
    obtain ⟨hstats, hworld⟩ := again
    have hcount := h.count hstats
    have hfiles : (world b.world).files = b.world.files := hworld b.world
    refine ⟨hcount.dir, ?_, ?_, hcount.loaded, hcount.classes, hcount.compilations,
      hcount.failedCompilations, hcount.compileNanos, hcount.diskHits, hcount.index, ?_⟩
    · exact hfiles.symm ▸ hcount.beyond
    · exact hfiles.symm ▸ hcount.libraries
    · exact hfiles.symm ▸ hcount.file

/-- A cache that was just opened over what another left behind. -/
theorem of_opened {p : Platform σ' L} (hp : p.PreparesRules) {w w' : World σ' L}
    (hfiles : w.files = first.world.files) {context : Context} {c : Cache L}
    (h : exec (ofDirectory p first.cache.dir context) w = (.ok c, w')) :
    Follows first 0 ⟨c, w'⟩ := by
  have hbeyond := sameBeyond_of_exec_ofDirectory hp h
  obtain ⟨hlibraries, hindex⟩ := get?_of_exec_ofDirectory hp h
  have hread := index_of_exec_ofDirectory h
  obtain ⟨hdir, -, hloaded, hclasses, hstats⟩ := of_exec_ofDirectory h
  have hpath : c.indexPath = first.cache.indexPath := by rw [indexPath, indexPath, hdir]
  rw [hfiles] at hindex
  constructor
  · exact hdir
  · rwa [hfiles] at hbeyond
  · intro stem
    have hlibrary := hlibraries stem
    rwa [hfiles] at hlibrary
  · exact fun hash a ha => absurd hloaded (Backed.loaded_ne_nil ha)
  · exact fun q d hd => absurd hclasses (Backed.classes_ne_nil hd)
  · exact congrArg Stats.compilations hstats
  · exact congrArg Stats.failedCompilations hstats
  · exact congrArg Stats.compileNanos hstats
  · show c.stats.diskHits = c.loaded.length + c.classes.length + 0
    rw [hstats, hloaded, hclasses]
    rfl
  · intro hfits hsaved hfree
    show c.index = first.cache.index
    have hfile := hindex.trans (hsaved.file hfree)
    rw [hread, hpath, Files.read?, indexPath, hfile]
    simp only [Option.bind_some, Archive.read?_write hfits, Option.getD_some]
  · exact fun _ => hindex

end Follows

/-! ### Emitters and compilers are not asked -/

/-- What can be used is taken from disk. -/
theorem exec_obtain_of_usable (p : Platform σ L) {stem : String} {load : String → Load σ L α}
    {read : String → L → Option α} (source : Except Source.EmitError Source.Unit) {b : Bench σ L}
    {a : α} (hload : Load.Reads load read) (h : b.cache.Usable b.world.files stem read a) :
    exec (obtain p stem load source) b =
      (.ok a, b.fromDisk (exec (load (b.cache.artifactPath stem)) b.world).2) := by
  have hfile : b.world.files.isFile (b.cache.artifactPath stem) = true := by
    rw [Files.isFile]
    cases hget : b.world.files.get? (b.cache.artifactPath stem) with
    | some => rfl
    | none =>
      rw [Usable, Files.library?, hget] at h
      cases h
  have hresult := hload.result (b.cache.artifactPath stem) b.world
  rw [show _ = some a from h] at hresult
  rcases hexec : exec (load (b.cache.artifactPath stem)) b.world with ⟨e | a', w⟩
  · rw [hexec] at hresult
    cases hresult
  · rw [hexec] at hresult
    obtain rfl := Option.some.inj hresult
    rw [obtain, exec_bind_ok (Action.exec_cache b), exec_bind_ok (exec_reuse_ok hfile hexec)]
    rfl

theorem Follows.exec_ensureClass {V : Vocabulary} {ℓ : Loader L} {first : Bench σ L}
    {b : Bench σ' L} {n : Nat} (h : Follows first n b) (hbacked : Backed V ℓ first)
    {p : Platform σ' L} (hℓ : p.LoadsAs ℓ) {name : String} {d : Binding L}
    (hknown : first.cache.class? (Spelling.normalize name) = some d)
    (compile : Job → StateM (World σ' L) Compiled) :
    exec (ensureClass (p.compilingBy compile) name) b = exec (ensureClass p name) b := by
  cases hclass : b.cache.class? (Spelling.normalize name) with
  | some d' => rw [exec_ensureClass_of_class? hclass, exec_ensureClass_of_class? hclass]
  | none =>
    obtain ⟨-, husable, -⟩ := hbacked.classes _ d hknown
    have hload := Load.reads_binding hℓ (Spelling.normalize name) (classHash name)
    have husable' : b.cache.Usable b.world.files (classHash name) _ d := h.usable husable
    have hobtain := fun p' : Platform σ' L => exec_obtain_of_usable p'
      (.ok (registration b.cache.context (Spelling.normalize name))) hload husable'
    have hsame : Load.binding (p.compilingBy compile) = Load.binding p := rfl
    rw [exec_ensureClass_of_none hclass, exec_ensureClass_of_none hclass, hsame, hobtain, hobtain]

theorem Follows.exec_lookup {V : Vocabulary} {ℓ : Loader L} {first : Bench σ L}
    {b : Bench σ' L} {n : Nat} (h : Follows first n b) (hbacked : Backed V ℓ first)
    {p : Platform σ' L} (hℓ : p.LoadsAs ℓ) {key : Key} {a : Artifact L}
    (hknown : first.cache.loaded? key.hash = some a)
    (compile : Job → StateM (World σ' L) Compiled)
    (emit emit' : Context → Except Source.EmitError Source.Unit) :
    exec (lookup (p.compilingBy compile) key emit') b = exec (lookup p key emit) b := by
  cases hloaded : b.cache.loaded? key.hash with
  | some a' => rw [exec_lookup_of_loaded? hloaded, exec_lookup_of_loaded? hloaded]
  | none =>
    obtain ⟨-, -, -, husable, -⟩ := hbacked.calls _ a hknown
    have hload := Load.reads_artifact hℓ key.hash
    have hobtain := fun (p' : Platform σ' L) source => exec_obtain_of_usable p' source hload
      (h.usable husable)
    have hsame : Load.artifact (p.compilingBy compile) = Load.artifact p := rfl
    rw [exec_lookup_of_none hloaded, exec_lookup_of_none hloaded, hsame, hobtain, hobtain]
    by_cases hkind : a.returns.kind = .object
    · obtain ⟨d, hd⟩ := hbacked.returned _ _ hknown hkind
      have hdisk := h.fromDisk (hload.files (b.cache.artifactPath key.hash) b.world)
      simp only [if_pos hkind, hdisk.resolved.exec_ensureClass hbacked hℓ hd]
    · simp only [if_neg hkind]

/-! ### The second session -/

/-- A session that asks again for what a first one left in memory gets it from the build directory.
It emits nothing and compiles nothing: what emitters and a compiler would do makes no difference. -/
structure Resumes (first : Bench σ L) (b : Bench σ' L) (hs : List (Happening σ' L)) : Prop where
  calls : ∀ pre p key emit post, hs = pre ++ .lookup p key emit :: post →
    ∃ a, first.cache.loaded? key.hash = some a ∧
      (exec (lookup p key emit) (b.after pre)).1 = .ok a ∧
      ∀ compile emit', exec (lookup (p.compilingBy compile) key emit') (b.after pre) =
        exec (lookup p key emit) (b.after pre)
  classes : ∀ pre p name post, hs = pre ++ .ensureClass p name :: post →
    ∃ d, first.cache.class? (Spelling.normalize name) = some d ∧
      (exec (ensureClass p name) (b.after pre)).1 = .ok d ∧
      ∀ compile, exec (ensureClass (p.compilingBy compile) name) (b.after pre) =
        exec (ensureClass p name) (b.after pre)
  compilations : (b.after hs).cache.stats.compilations = 0
  failedCompilations : (b.after hs).cache.stats.failedCompilations = 0
  compileNanos : (b.after hs).cache.stats.compileNanos = 0
  diskHits : (b.after hs).cache.stats.diskHits =
    (b.after hs).cache.loaded.length + (b.after hs).cache.classes.length
  index : Archive.Fits first.cache.index →
    (b.after hs).world.files.get? first.cache.indexPath =
      first.world.files.get? first.cache.indexPath

/-- **A warm restart.** Whatever a session over a build directory was answered is in its memory at
the end. A second cache that is opened over the same directory afterwards, with any context, and
asked again for some of this, in any order, answers each time with the same artifact or the same
binding. It neither emits nor compiles, counts a disk hit for each library that it loads, and
leaves the index file as it was. -/
theorem warm_restart {V : Vocabulary} {ℓ : Loader L} {b : Bench σ L} (opened : b.Opened)
    {hs : List (Happening σ L)} (first : b.Throughout (Happening.Within V ℓ) hs)
    {p : Platform σ' L} (hp : p.PreparesRules) {w w' : World σ' L}
    (hfiles : w.files = (b.after hs).world.files) {context : Context} {c : Cache L}
    (hopen : exec (ofDirectory p b.cache.dir context) w = (.ok c, w'))
    {more : List (Happening σ' L)} (again : ∀ h ∈ more, h.Again V ℓ (b.after hs).cache) :
    (∀ pre p key emit post a, hs = pre ++ .lookup p key emit :: post →
      (exec (lookup p key emit) (b.after pre)).1 = .ok a →
      (b.after hs).cache.loaded? key.hash = some a) ∧
    (∀ pre p name post d, hs = pre ++ .ensureClass p name :: post →
      (exec (ensureClass p name) (b.after pre)).1 = .ok d →
      (b.after hs).cache.class? (Spelling.normalize name) = some d) ∧
    Resumes (b.after hs) ⟨c, w'⟩ more := by
  have hbacked : Backed V ℓ (b.after hs) := Backed.after opened first
  have hstart : Follows (b.after hs) 0 ⟨c, w'⟩ := .of_opened hp hfiles ((dir_after b hs).1 ▸ hopen)
  have hafter : ∀ pre post, more = pre ++ post →
      Follows (b.after hs) 0 ((⟨c, w'⟩ : Bench σ' L).after pre) := by
    rintro pre post rfl
    have hall : (⟨c, w'⟩ : Bench σ' L).Throughout (fun _ h => h.Again V ℓ (b.after hs).cache)
        pre := by
      rintro pre' h post' rfl
      exact again h (by simp)
    exact hall.induction (P := Follows (b.after hs) 0)
      (fun _ _ h hagain => h.next hbacked hagain) hstart
  have hend := hafter more [] (List.append_nil more).symm
  have hin : ∀ pre h post, more = pre ++ h :: post → h.Again V ℓ (b.after hs).cache := by
    rintro pre h post rfl
    exact again h (by simp)
  refine ⟨?_, ?_, ?_⟩
  · rintro pre p key emit post a rfl ha
    have hloaded := (supplying_of_exec (Prod.ext ha rfl)).loaded?_of_ok
    rw [Bench.after, List.foldl_append]
    exact (keeps_after _ post).loaded _ _ hloaded
  · rintro pre p name post d rfl hd
    have hclass := (registering_of_exec (Prod.ext hd rfl)).class?_of_ok
    rw [Bench.after, List.foldl_append]
    exact (keeps_after _ post).classes _ _ hclass
  · refine ⟨?_, ?_, hend.compilations, hend.failedCompilations, hend.compileNanos, hend.diskHits,
      hend.file⟩
    · intro pre p key emit post hmore
      obtain ⟨hℓ, ⟨s, hs, rfl⟩, a, ha⟩ := hin pre _ post hmore
      have hfollows := hafter pre _ hmore
      refine ⟨a, ha, ?_, fun compile emit' => hfollows.exec_lookup hbacked hℓ ha compile emit emit'⟩
      exact (hfollows.supplying (supplying_exec p _ emit _) hbacked hℓ hs ha).1
    · intro pre p name post hmore
      obtain ⟨hℓ, d, hd⟩ := hin pre _ post hmore
      have hfollows := hafter pre _ hmore
      refine ⟨d, hd, ?_, fun compile => hfollows.exec_ensureClass hbacked hℓ hd compile⟩
      exact (hfollows.registering (registering_exec p name _) hbacked hℓ hd).1

/-! ### A scripted restart -/

/-- A function that returns an object, and the class of the object. -/
def oneObject : Script where
  parts := [Script.entry { signature := "f()", description := ⟨2, some (Text.encode "P")⟩ },
    Script.entry { signature := "class P", spelling := some (Text.encode "P") }]

theorem hashOf_ne_of_oneObject : Key.hashOf "f()" ≠ (Key.ofClass "P").hash := by
  decide +kernel

/-- The texts that `oneObject` goes by. -/
def oneObjectTexts : Vocabulary := .ofPair "f()" "P" hashOf_ne_of_oneObject

/-- A session that calls the function and asks for the class. -/
def objectSession : List (Happening Script.Stage String) :=
  [.lookup (Script.platform oneObject) (Key.ofSignature "f()") fun _ => .ok {},
    .ensureClass (Script.platform oneObject) "P"]

/-- Any object that a call of `oneObject` returns is a `P`. -/
theorem class_of_oneObject {b : Bench Script.Stage String} {key : Key}
    {emit : Context → Except Source.EmitError Source.Unit} {a : Artifact String} {s : Stats}
    {w : World Script.Stage String}
    (h : CallAttempt (Script.platform oneObject) key emit b (.ok a) s w)
    (hkind : a.returns.kind = .object) : Spelling.normalize a.returns.typeName = "P" := by
  obtain ⟨path, w₁, hload⟩ := h.exists_exec_load
  have hread := (Load.reads_artifact oneObject.loadsAs key.hash).eq_some_of_ok hload
  obtain ⟨lib, -, ha⟩ := Option.bind_eq_some_iff.1 hread
  obtain ⟨-, hcode, htype⟩ := Loader.of_artifact? ha
  have hdescription : (oneObject.partOf lib).description = ⟨0, none⟩ ∨
      (oneObject.partOf lib).description = ⟨2, some (Text.encode "P")⟩ := by
    rw [Script.partOf, Script.part?]
    cases hfind : oneObject.parts.find? (·.1 == lib) with
    | none => exact .inl rfl
    | some e =>
      have hmem := List.mem_of_find?_eq_some hfind
      simp only [oneObject, List.mem_cons, List.not_mem_nil, or_false] at hmem
      rcases hmem with rfl | rfl
      · exact .inr rfl
      · exact .inl rfl
  rw [show oneObject.loader.description lib = (oneObject.partOf lib).description from rfl]
    at hcode htype
  rcases hdescription with h₀ | h₂
  · rw [h₀, hkind] at hcode
    exact absurd hcode (by decide)
  · rw [htype, h₂]
    decide +kernel

theorem within_objectSession :
    (fresh oneObject).Throughout (Happening.Within oneObjectTexts oneObject.loader)
      objectSession := by
  have hp := tidy_script oneObject
  have hℓ := oneObject.loadsAs
  refine .cons ⟨hp, hℓ, ⟨_, rfl, rfl⟩, fun _ _ _ => class_of_oneObject⟩ (.cons ⟨hp, hℓ, ?_⟩ ?_)
  · show Spelling.normalize "P" = "P"
    decide +kernel
  · exact Bench.throughout_nil _ _

/-- The hypotheses of `warm_restart` are satisfiable: a second session asks for the class and the
call of a first one the other way round, with an emitter that fails. -/
theorem warm_restart_oneObject :
    (fresh oneObject).Opened ∧
    (fresh oneObject).Throughout (Happening.Within oneObjectTexts oneObject.loader) objectSession ∧
    (Script.platform oneObject).PreparesRules ∧
    ∃ c w', exec (ofDirectory (Script.platform oneObject) "/build" {})
        ⟨((fresh oneObject).after objectSession).world.files, {}, 0⟩ = (.ok c, w') ∧
      Resumes ((fresh oneObject).after objectSession) ⟨c, w'⟩
        [.ensureClass (Script.platform oneObject) "P",
          .lookup (Script.platform oneObject) (Key.ofSignature "f()") fun _ =>
            .error .missingReceiver] := by
  have opened : (fresh oneObject).Opened :=
    ⟨Script.platform oneObject, "/build", {}, ⟨{}, {}, 0⟩, rfl⟩
  have hp := preparesRules_script oneObject
  -- One evaluation of the session for all that it is to show.
  have hsession : ((((fresh oneObject).after objectSession).cache.loaded?
        (Key.hashOf "f()")).isSome &&
      (((fresh oneObject).after objectSession).cache.class? (Spelling.normalize "P")).isSome &&
      (exec (ofDirectory (Script.platform oneObject) "/build" {})
        ⟨((fresh oneObject).after objectSession).world.files, {}, 0⟩).1.isOk) = true := by
    decide +kernel
  obtain ⟨hmemory, hok⟩ := Bool.and_eq_true_iff.1 hsession
  obtain ⟨hloaded, hclass⟩ := Bool.and_eq_true_iff.1 hmemory
  rcases hopen : exec (ofDirectory (Script.platform oneObject) "/build" {})
      ⟨((fresh oneObject).after objectSession).world.files, {}, 0⟩ with ⟨_ | c, w'⟩
  · rw [hopen] at hok
    exact absurd hok nofun
  refine ⟨opened, within_objectSession, hp, c, w', rfl, ?_⟩
  have hfiles : ∀ files : Files String,
      (⟨files, {}, 0⟩ : World Script.Stage String).files = files := fun _ => rfl
  refine (warm_restart opened within_objectSession hp (hfiles _) hopen ?_).2.2
  intro h hmem
  simp only [List.mem_cons, List.not_mem_nil, or_false] at hmem
  rcases hmem with rfl | rfl
  · exact ⟨oneObject.loadsAs, Option.isSome_iff_exists.1 hclass⟩
  · exact ⟨oneObject.loadsAs, ⟨_, rfl, rfl⟩, Option.isSome_iff_exists.1 hloaded⟩

end Cache
end Bindery
