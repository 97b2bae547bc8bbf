/-
# Coming by a library

A library that is not at hand is looked for on disk and, failing that, compiled. There are five
ways for this to end (`Attempt`):

| attempt | ends with | counts as |
| --- | --- | --- |
| `disk` | what lies in the build directory | disk hit |
| `unemitted` | no source | |
| `unwritten` | a source that could not be written | |
| `uncompiled` | the compiler's error | failed compilation |
| `compiled` | what came of loading the new library | compilation |

`Cache.obtain` makes one such attempt (`Cache.attempt_obtain`). An attempt counts nothing else, and
if compiling writes only the library asked for (`Platform.WritesOnlyOutput`), it touches no files
but those of its own stem (`Attempt.get?_files`).
-/

import Bindery.Proofs.Store.Exec

namespace Bindery

variable {σ L α : Type}

/-! ### Files that are written in two steps -/

namespace Files

/-- Saving leaves all but the path and its staging name alone, however far it gets. -/
theorem get?_save {files : Files L} {path other : String} {content : List UInt8}
    (hpath : other ≠ path) (hstaging : other ≠ staging path) :
    (files.save path content).get? other = files.get? other := by
  have hstage : ∀ staged, files.stage path content = .ok staged →
      staged.get? other = files.get? other := by
    intro staged h
    unfold stage write at h
    split at h
    · exact absurd h nofun
    · obtain rfl := Except.ok.inj h
      rw [get?_put, if_neg hstaging.symm]
  have hpublish : ∀ staged published : Files L, staged.publish path = .ok published →
      published.get? other = staged.get? other := by
    intro staged published h
    unfold publish rename at h
    split at h
    · exact absurd h nofun
    · split at h
      · exact absurd h nofun
      · obtain rfl := Except.ok.inj h
        rw [get?_put, if_neg hpath.symm, get?_remove, if_neg hstaging.symm]
  unfold save
  split
  · rfl
  · rename_i staged hs
    split
    · rename_i published hp
      rw [hpublish staged published hp, hstage staged hs]
    · exact hstage staged hs

/-- What is replaced is saved. -/
theorem save_of_replace {files replaced : Files L} {path : String} {content : List UInt8}
    (h : files.replace path content = .ok replaced) : files.save path content = replaced := by
  unfold replace at h
  unfold save
  cases hs : files.stage path content with
  | error e =>
    rw [hs] at h
    exact absurd h nofun
  | ok staged =>
    rw [hs] at h
    have hp : staged.publish path = .ok replaced := h
    simp only [hp]

end Files

/-- Compiling writes nothing but the library that the job asks for. -/
def Platform.WritesOnlyOutput (p : Platform σ L) : Prop :=
  ∀ job w path, path ≠ job.output → (p.compile job w).2.files.get? path = w.files.get? path

/-- Loading touches no file. -/
def Load.KeepsFiles (load : String → Load σ L α) : Prop :=
  ∀ path w, (exec (load path) w).2.files = w.files

theorem Load.KeepsFiles.files_eq {load : String → Load σ L α} (h : Load.KeepsFiles load)
    {path : String} {w w' : World σ L} {r : Except LoadError α}
    (hload : exec (load path) w = (r, w')) : w'.files = w.files := by
  have hfiles := h path w
  rwa [hload] at hfiles

/-- The bench after work that leaves other statistics and another world behind. -/
def Bench.worked (b : Bench σ L) (s : Stats) (w : World σ L) : Bench σ L :=
  ⟨{ b.cache with stats := s }, w⟩

/-! ### Attempts -/

namespace Cache

/-- The files that belong to a stem: its source, where that is staged, and its library. -/
def stemFiles (c : Cache L) (stem : String) : List String :=
  [c.sourcePath stem, Files.staging (c.sourcePath stem), c.artifactPath stem]

/-- Two caches differ at most in what is counted while libraries are come by. -/
structure SameMemory (c d : Cache L) : Prop where
  dir : d.dir = c.dir
  context : d.context = c.context
  loaded : d.loaded = c.loaded
  classes : d.classes = c.classes
  index : d.index = c.index
  cacheHits : d.stats.cacheHits = c.stats.cacheHits
  classRegistrations : d.stats.classRegistrations = c.stats.classRegistrations
  constructors : d.stats.constructors = c.stats.constructors
  kernels : d.stats.kernels = c.stats.kernels

theorem SameMemory.trans {c d e : Cache L} (h : c.SameMemory d) (h' : d.SameMemory e) :
    c.SameMemory e where
  dir := h'.dir.trans h.dir
  context := h'.context.trans h.context
  loaded := h'.loaded.trans h.loaded
  classes := h'.classes.trans h.classes
  index := h'.index.trans h.index
  cacheHits := h'.cacheHits.trans h.cacheHits
  classRegistrations := h'.classRegistrations.trans h.classRegistrations
  constructors := h'.constructors.trans h.constructors
  kernels := h'.kernels.trans h.kernels

/-- Nothing usable lies at a path: there is no file, or it fails to load, which leaves a world
behind. -/
inductive Unusable (path : String) (load : String → Load σ L α) (w : World σ L) :
    World σ L → Prop
  | absent (h : w.files.isFile path = false) : Unusable path load w w
  | refused {e w'} (h : w.files.isFile path = true) (hload : exec (load path) w = (.error e, w')) :
    Unusable path load w w'

/-- The world after the source with a stem was written, as far as that goes. -/
def written (c : Cache L) (stem : String) (unit : Source.Unit) (w : World σ L) : World σ L :=
  { w with files := w.files.save (c.sourcePath stem) (Text.encode unit.text) }

/-- What can come of an attempt at the library with a stem in a world: a result, the statistics and
the world after it. -/
inductive Attempt (p : Platform σ L) (c : Cache L) (stem : String) (load : String → Load σ L α)
    (source : Except Source.EmitError Source.Unit) (w : World σ L) :
    Except CacheError α → Stats → World σ L → Prop
  | disk {a w'} (h : w.files.isFile (c.artifactPath stem) = true)
    (hload : exec (load (c.artifactPath stem)) w = (.ok a, w')) :
    Attempt p c stem load source w (.ok a) { c.stats with diskHits := c.stats.diskHits + 1 } w'
  | unemitted {e w'} (h : Unusable (c.artifactPath stem) load w w') (hemit : source = .error e) :
    Attempt p c stem load source w (.error (.emit e)) c.stats w'
  | unwritten {unit e w'} (h : Unusable (c.artifactPath stem) load w w')
    (hemit : source = .ok unit)
    (hwrite : w'.files.replace (c.sourcePath stem) (Text.encode unit.text) = .error e) :
    Attempt p c stem load source w (.error (.file e)) c.stats (c.written stem unit w')
  | uncompiled {unit files e nanos w' w''} (h : Unusable (c.artifactPath stem) load w w')
    (hemit : source = .ok unit)
    (hwrite : w'.files.replace (c.sourcePath stem) (Text.encode unit.text) = .ok files)
    (hcompile : p.compile (c.job stem) (c.written stem unit w') = (⟨.error e, nanos⟩, w'')) :
    Attempt p c stem load source w (.error (.build e)) (c.stats.compile nanos false) w''
  | compiled {unit files path nanos r w' w'' w'''} (h : Unusable (c.artifactPath stem) load w w')
    (hemit : source = .ok unit)
    (hwrite : w'.files.replace (c.sourcePath stem) (Text.encode unit.text) = .ok files)
    (hcompile : p.compile (c.job stem) (c.written stem unit w') = (⟨.ok path, nanos⟩, w''))
    (hload : exec (load path) w'' = (r, w''')) :
    Attempt p c stem load source w (r.mapError .load) (c.stats.compile nanos true) w'''

/-! ### One attempt is made -/

theorem exec_reuse_ok {path : String} {load : Load σ L α} {b : Bench σ L} {a : α} {w : World σ L}
    (h : b.world.files.isFile path = true) (hload : exec load b.world = (.ok a, w)) :
    exec (reuse path load) b =
      (.ok (some a), b.worked { b.cache.stats with diskHits := b.cache.stats.diskHits + 1 } w) := by
  rw [reuse, exec_bind_ok (exec_get b), if_pos h, exec_bind_ok (Action.exec_inWorld load.run b)]
  rw [show load.run b.world = (.ok a, w) from hload]
  rfl

theorem exec_reuse_none {path : String} {load : String → Load σ L α} {b : Bench σ L}
    {w : World σ L} (h : Unusable path load b.world w) :
    exec (reuse path (load path)) b = (.ok none, b.worked b.cache.stats w) := by
  rw [reuse, exec_bind_ok (exec_get b)]
  cases h with
  | absent h =>
    rw [if_neg (by simp [h])]
    rfl
  | refused h hload =>
    rw [if_pos h, exec_bind_ok (Action.exec_inWorld (load path).run b)]
    rw [show (load path).run b.world = (.error _, w) from hload]
    rfl

section

variable {p : Platform σ L} {stem : String} {unit : Source.Unit} {b : Bench σ L}

/-- A source that cannot be written ends a build. -/
theorem exec_build_unwritten {e : FileError}
    (h : b.world.files.replace (b.cache.sourcePath stem) (Text.encode unit.text) = .error e) :
    exec (build p stem unit) b =
      (.error (.file e), { b with world := b.cache.written stem unit b.world }) := by
  rw [build, exec_bind_ok (Action.exec_cache b), written, Files.save]
  unfold Files.replace at h
  cases hs : b.world.files.stage (b.cache.sourcePath stem) (Text.encode unit.text) with
  | error e' =>
    rw [hs] at h
    obtain rfl : e' = e := Except.error.inj h
    rw [exec_bind_error (Action.exec_onFiles_error hs)]
  | ok staged =>
    rw [hs] at h
    have hp : staged.publish (b.cache.sourcePath stem) = .error e := h
    simp only [hp]
    rw [exec_bind_ok (Action.exec_onFiles_ok hs), exec_bind_error (Action.exec_onFiles_error hp)]

/-- Behind its source a build is what the compiler makes of it. -/
theorem exec_build_written {files : Files L} {compiled : Compiled} {w : World σ L}
    (h : b.world.files.replace (b.cache.sourcePath stem) (Text.encode unit.text) = .ok files)
    (hcompile : p.compile (b.cache.job stem) (b.cache.written stem unit b.world) = (compiled, w)) :
    exec (build p stem unit) b = (compiled.result.mapError .build,
      b.worked (b.cache.stats.compile compiled.nanos compiled.result.isOk) w) := by
  rw [written, Files.save_of_replace h] at hcompile
  rw [build, exec_bind_ok (Action.exec_cache b)]
  unfold Files.replace at h
  cases hs : b.world.files.stage (b.cache.sourcePath stem) (Text.encode unit.text) with
  | error e' =>
    rw [hs] at h
    exact absurd h nofun
  | ok staged =>
    rw [hs] at h
    have hp : staged.publish (b.cache.sourcePath stem) = .ok files := h
    rw [exec_bind_ok (Action.exec_onFiles_ok hs), exec_bind_ok (Action.exec_onFiles_ok hp),
      exec_bind_ok (Action.exec_inWorld _ _)]
    rw [show p.compile _ _ = _ from hcompile]
    rcases compiled with ⟨_ | _, nanos⟩ <;> rfl

end

/-- **Obtaining makes one attempt.** -/
theorem attempt_obtain (p : Platform σ L) (stem : String) (load : String → Load σ L α)
    (source : Except Source.EmitError Source.Unit) (b : Bench σ L) :
    ∃ r s w, Attempt p b.cache stem load source b.world r s w ∧
      exec (obtain p stem load source) b = (r, b.worked s w) := by
  -- what lies on disk is usable, or leaves a world behind in which the source is asked for
  have hdisk : (∃ a w, b.world.files.isFile (b.cache.artifactPath stem) = true ∧
      exec (load (b.cache.artifactPath stem)) b.world = (.ok a, w)) ∨
      ∃ w, Unusable (b.cache.artifactPath stem) load b.world w := by
    cases hfile : b.world.files.isFile (b.cache.artifactPath stem) with
    | false => exact .inr ⟨_, .absent hfile⟩
    | true =>
      rcases hload : exec (load (b.cache.artifactPath stem)) b.world with ⟨_ | a, w⟩
      · exact .inr ⟨w, .refused hfile hload⟩
      · exact .inl ⟨a, w, rfl, rfl⟩
  rw [obtain, exec_bind_ok (Action.exec_cache b)]
  rcases hdisk with ⟨a, w, hfile, hload⟩ | ⟨w, hunusable⟩
  · refine ⟨_, _, _, .disk hfile hload, ?_⟩
    rw [exec_bind_ok (exec_reuse_ok hfile hload)]
    rfl
  · rw [exec_bind_ok (exec_reuse_none hunusable)]
    cases source with
    | error e => exact ⟨_, _, _, .unemitted hunusable rfl, rfl⟩
    | ok unit =>
      cases hwrite : w.files.replace (b.cache.sourcePath stem) (Text.encode unit.text) with
      | error e =>
        refine ⟨_, _, _, .unwritten hunusable rfl hwrite, ?_⟩
        show exec (build p stem unit >>= _) (b.worked b.cache.stats w) = _
        rw [exec_bind_error (exec_build_unwritten (b := b.worked b.cache.stats w) hwrite)]
        rfl
      | ok files =>
        rcases hcompile : p.compile (b.cache.job stem) (b.cache.written stem unit w) with
          ⟨⟨e | path, nanos⟩, w'⟩
        · refine ⟨_, _, _, .uncompiled hunusable rfl hwrite hcompile, ?_⟩
          show exec (build p stem unit >>= _) (b.worked b.cache.stats w) = _
          rw [exec_bind_error (exec_build_written (b := b.worked b.cache.stats w) hwrite hcompile)]
          rfl
        · rcases hload : exec (load path) w' with ⟨r, w''⟩
          refine ⟨_, _, _, .compiled hunusable rfl hwrite hcompile hload, ?_⟩
          show exec (build p stem unit >>= _) (b.worked b.cache.stats w) = _
          rw [exec_bind_ok (exec_build_written (b := b.worked b.cache.stats w) hwrite hcompile),
            exec_bind_ok (Action.exec_inWorld _ _)]
          rw [show (load path).run (Bench.worked _ _ w').world = (r, w'') from hload]
          cases r <;> rfl

namespace Attempt

variable {p : Platform σ L} {c : Cache L} {stem : String} {load : String → Load σ L α}
  {source : Except Source.EmitError Source.Unit} {w w' : World σ L} {s : Stats}

/-- What an attempt ends with has been loaded. -/
theorem exists_exec_load {a : α} (h : Attempt p c stem load source w (.ok a) s w') :
    ∃ path w₁, exec (load path) w₁ = (.ok a, w') := by
  generalize hr : Except.ok a = r at h
  cases h with
  | disk _ hload =>
    obtain rfl := Except.ok.inj hr
    exact ⟨_, _, hload⟩
  | unemitted | unwritten | uncompiled => exact absurd hr nofun
  | @compiled _ _ path _ r _ w₁ _ _ _ _ _ hload =>
    cases r with
    | error e => exact absurd hr nofun
    | ok a' =>
      obtain rfl := Except.ok.inj hr
      exact ⟨path, w₁, hload⟩

/-- An attempt remembers nothing: it only counts. -/
theorem sameMemory {r : Except CacheError α} (h : Attempt p c stem load source w r s w') :
    SameMemory c { c with stats := s } := by
  cases h with
  | disk | unemitted | unwritten | uncompiled | compiled => constructor <;> rfl

/-- What is unusable on disk is left there. -/
theorem files_unusable {path : String} (hload : Load.KeepsFiles load)
    (h : Unusable path load w w') : w'.files = w.files := by
  cases h with
  | absent => rfl
  | refused _ h => exact hload.files_eq h

/-- **An attempt keeps to the files of its stem.** -/
theorem get?_files {r : Except CacheError α} {path : String} (hp : p.WritesOnlyOutput)
    (hload : Load.KeepsFiles load) (h : Attempt p c stem load source w r s w')
    (hpath : path ∉ c.stemFiles stem) : w'.files.get? path = w.files.get? path := by
  simp only [stemFiles, List.mem_cons, List.not_mem_nil, or_false, not_or] at hpath
  obtain ⟨hsource, hstaging, hartifact⟩ := hpath
  have hwritten : ∀ unit w₁, Unusable (c.artifactPath stem) load w w₁ →
      (c.written stem unit w₁).files.get? path = w.files.get? path := by
    intro unit w₁ h
    rw [← files_unusable hload h]
    exact Files.get?_save hsource hstaging
  have hcompiled : ∀ {unit w₁ compiled w₂}, Unusable (c.artifactPath stem) load w w₁ →
      p.compile (c.job stem) (c.written stem unit w₁) = (compiled, w₂) →
      w₂.files.get? path = w.files.get? path := by
    intro unit w₁ compiled w₂ h hcompile
    have hwrites := hp (c.job stem) (c.written stem unit w₁) path hartifact
    rw [hcompile] at hwrites
    rw [hwrites, hwritten unit w₁ h]
  cases h with
  | disk _ h => rw [hload.files_eq h]
  | unemitted h => rw [files_unusable hload h]
  | unwritten h => exact hwritten _ _ h
  | uncompiled h _ _ hcompile => exact hcompiled h hcompile
  | compiled h _ _ hcompile h' =>
    rw [hload.files_eq h']
    exact hcompiled h hcompile

end Attempt

end Cache
end Bindery
