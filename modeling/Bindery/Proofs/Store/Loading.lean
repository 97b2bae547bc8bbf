/-
# Loading as reading

Where it depends on a library alone whether it loads and as what (`Platform.LoadsAs`), loading is
reading (`Load.Reads`): it gives what a `Loader` makes of the library at the path and changes no
file. This settles an attempt at a stem from both ends:

| if | then |
| --- | --- |
| the library of the stem can be used | the attempt ends with it and compiles nothing (`Attempt.eq_of_usable`) |
| the attempt ends with something | the library of the stem can be used and gives just that (`Attempt.usable`) |

The second needs a compiler that leaves its library where it was told to (`Platform.Tidy`).
-/

import Bindery.Proofs.Store.Failure

namespace Bindery

variable {σ L α : Type}

/-- What libraries are to whoever loads them. -/
structure Loader (L : Type) where
  hasSymbol : L → String → Bool
  description : L → Description
  spelling : L → Option (List UInt8)

/-- Whether a library loads, and as what, depends on nothing else. -/
structure Platform.LoadsAs (p : Platform σ L) (ℓ : Loader L) : Prop where
  hasSymbol : p.hasSymbol = ℓ.hasSymbol
  description : ∀ lib s, (p.probe lib s).1 = ℓ.description lib
  spelling : p.spelling = ℓ.spelling

/-- Compiling writes nothing but the library that the job asks for, makes no directory, and says
that the library is where it was asked for. -/
structure Platform.Tidy (p : Platform σ L) : Prop where
  writes : p.WritesOnlyOutput
  bare : ∀ job w, (p.compile job w).2.files.bare = w.files.bare
  output : ∀ job w path, (p.compile job w).1.result = .ok path → path = job.output

/-- The library at a path. -/
def Files.library? (files : Files L) (path : String) : Option L :=
  match files.get? path with
  | some (.library lib) => some lib
  | _ => none

namespace Loader

/-- A library exports all of some symbols. -/
def exportsAll (ℓ : Loader L) (lib : L) (symbols : List String) : Bool :=
  symbols.all (ℓ.hasSymbol lib)

/-- What the library of a call loads as. -/
def artifact? (ℓ : Loader L) (hash path : String) (lib : L) : Option (Artifact L) :=
  if ℓ.exportsAll lib [hash, Source.probeSymbol hash] then
    (ReturnKind.ofCode? (ℓ.description lib).kind).map fun kind =>
      ⟨hash, path, ⟨kind, Text.ofC (ℓ.description lib).typeName⟩, lib⟩
  else none

/-- What the library of a class loads as, wherever it lies. -/
def binding? (ℓ : Loader L) (qualified hash _path : String) (lib : L) : Option (Binding L) :=
  if ℓ.exportsAll lib [Source.dropSymbol hash, Source.getSymbol hash, Source.setSymbol hash,
      Source.cppTypeSymbol hash] then
    some ⟨qualified, hash, Text.ofC (ℓ.spelling lib), lib⟩
  else none

/-- An artifact holds the library it was made of, and returns what that describes. -/
theorem of_artifact? {ℓ : Loader L} {hash path : String} {lib : L} {a : Artifact L}
    (h : ℓ.artifact? hash path lib = some a) :
    a.lib = lib ∧ ReturnKind.ofCode? (ℓ.description lib).kind = some a.returns.kind ∧
      a.returns.typeName = Text.ofC (ℓ.description lib).typeName := by
  unfold artifact? at h
  split at h
  · obtain ⟨kind, hkind, rfl⟩ := Option.map_eq_some_iff.1 h
    exact ⟨rfl, hkind, rfl⟩
  · exact absurd h nofun

theorem lib_of_binding? {ℓ : Loader L} {qualified hash path : String} {lib : L} {d : Binding L}
    (h : ℓ.binding? qualified hash path lib = some d) : d.lib = lib := by
  unfold binding? at h
  split at h
  · rw [← Option.some.inj h]
  · exact absurd h nofun

end Loader

namespace Load

/-- Loading gives what is read from the library at the path, and changes no file. -/
structure Reads (load : String → Load σ L α) (read : String → L → Option α) : Prop where
  files : KeepsFiles load
  result : ∀ path w, (exec (load path) w).1.toOption = (w.files.library? path).bind (read path)

/-- A library is loaded if it is there and exports the symbols. -/
theorem exec_library_cases {p : Platform σ L} {ℓ : Loader L} (h : p.LoadsAs ℓ) (path : String)
    (symbols : List String) (w : World σ L) :
    (∃ lib, w.files.library? path = some lib ∧ ℓ.exportsAll lib symbols = true ∧
      exec (library p path symbols) w = (.ok lib, w)) ∨
    (∃ e, exec (library p path symbols) w = (.error e, w) ∧
      ∀ lib, w.files.library? path = some lib → ℓ.exportsAll lib symbols = false) := by
  have hno : (∀ lib, w.files.get? path ≠ some (.library lib)) → w.files.library? path = none := by
    intro hfile
    rw [Files.library?]
    split
    · rename_i lib h
      exact absurd h (hfile lib)
    · rfl
  rw [library, exec_bind_ok (exec_get w)]
  split
  · rename_i lib hfile
    have hlib : w.files.library? path = some lib := by rw [Files.library?, hfile]
    rw [hlib]
    cases hfind : symbols.find? fun s => !p.hasSymbol lib s with
    | none =>
      refine .inl ⟨lib, rfl, ?_, rfl⟩
      rw [Loader.exportsAll, ← h.hasSymbol]
      simpa using hfind
    | some s =>
      refine .inr ⟨_, rfl, fun lib' hlib' => ?_⟩
      obtain rfl := Option.some.inj hlib'
      rw [Loader.exportsAll, ← h.hasSymbol, List.all_eq_false]
      exact ⟨s, List.mem_of_find?_eq_some hfind, by simpa using List.find?_some hfind⟩
  · rename_i hfile
    refine .inr ⟨_, rfl, fun lib hlib => ?_⟩
    rw [hno hfile] at hlib
    exact absurd hlib nofun

theorem reads_artifact {p : Platform σ L} {ℓ : Loader L} (h : p.LoadsAs ℓ) (hash : String) :
    Reads (artifact p hash) (ℓ.artifact? hash) := by
  refine ⟨Cache.keepsFiles_artifact p hash, fun path w => ?_⟩
  rcases exec_library_cases h path [hash, Source.probeSymbol hash] w with
    ⟨lib, hfile, hall, hexec⟩ | ⟨e, hexec, hnone⟩
  · rw [artifact, exec_bind_ok hexec, hfile, Option.bind_some, Loader.artifact?, if_pos hall]
    have hdescription := h.description lib w.outside
    simp only [exec_bind, exec_ask, hdescription]
    cases ReturnKind.ofCode? (ℓ.description lib).kind <;> rfl
  · rw [artifact, exec_bind_error hexec]
    cases hfile : w.files.library? path with
    | none => rfl
    | some lib =>
      rw [Option.bind_some, Loader.artifact?, hnone lib hfile]
      rfl

theorem reads_binding {p : Platform σ L} {ℓ : Loader L} (h : p.LoadsAs ℓ)
    (qualified hash : String) : Reads (binding p qualified hash) (ℓ.binding? qualified hash) := by
  refine ⟨Cache.keepsFiles_binding p qualified hash, fun path w => ?_⟩
  rcases exec_library_cases h path [Source.dropSymbol hash, Source.getSymbol hash,
    Source.setSymbol hash, Source.cppTypeSymbol hash] w with
    ⟨lib, hfile, hall, hexec⟩ | ⟨e, hexec, hnone⟩
  · rw [binding, exec_bind_ok hexec, hfile, Option.bind_some, Loader.binding?, if_pos hall,
      ← h.spelling]
    rfl
  · rw [binding, exec_bind_error hexec]
    cases hfile : w.files.library? path with
    | none => rfl
    | some lib =>
      rw [Option.bind_some, Loader.binding?, hnone lib hfile]
      rfl

theorem Reads.eq_some_of_ok {load : String → Load σ L α} {read : String → L → Option α}
    (h : Reads load read) {path : String} {w w' : World σ L} {a : α}
    (hload : exec (load path) w = (.ok a, w')) :
    (w'.files.library? path).bind (read path) = some a := by
  rw [h.files.files_eq hload, ← h.result path w, hload]
  rfl

end Load

namespace Cache

/-- The library of a stem can be used: it loads as `a`. -/
def Usable (c : Cache L) (files : Files L) (stem : String) (read : String → L → Option α)
    (a : α) : Prop :=
  (files.library? (c.artifactPath stem)).bind (read (c.artifactPath stem)) = some a

/-- Only the directory of the cache and the file at the path matter. -/
theorem Usable.congr {c d : Cache L} {files files' : Files L} {stem : String}
    {read : String → L → Option α} {a : α} (h : c.Usable files stem read a) (hdir : d.dir = c.dir)
    (hget : files'.get? (c.artifactPath stem) = files.get? (c.artifactPath stem)) :
    d.Usable files' stem read a := by
  have hpath : d.artifactPath stem = c.artifactPath stem := by
    rw [artifactPath, artifactPath, hdir]
  rw [Usable, hpath, Files.library?, hget]
  exact h

namespace Attempt

variable {p : Platform σ L} {c : Cache L} {stem : String} {load : String → Load σ L α}
  {read : String → L → Option α} {source : Except Source.EmitError Source.Unit}
  {w w' : World σ L} {s : Stats}

/-- What an attempt ends with lies in the build directory. -/
theorem usable {a : α} (hp : p.Tidy) (hload : Load.Reads load read)
    (h : Attempt p c stem load source w (.ok a) s w') : c.Usable w'.files stem read a := by
  generalize hr : Except.ok a = r at h
  cases h with
  | disk _ hexec =>
    obtain rfl := Except.ok.inj hr
    exact hload.eq_some_of_ok hexec
  | unemitted | unwritten | uncompiled => exact absurd hr nofun
  | @compiled unit files path nanos r w₁ w₂ _ _ _ _ hcompile hexec =>
    cases r with
    | error e => exact absurd hr nofun
    | ok a' =>
      obtain rfl := Except.ok.inj hr
      have hpath : path = (c.job stem).output := hp.output _ _ path (by rw [hcompile])
      rw [hpath] at hexec
      exact hload.eq_some_of_ok hexec

/-- What can be used is not refused. -/
theorem not_unusable {a : α} (hload : Load.Reads load read)
    (h : c.Usable w.files stem read a) :
    ¬ Unusable (c.artifactPath stem) load w w' := by
  intro hunusable
  cases hunusable with
  | absent habsent =>
    have hfile : w.files.get? (c.artifactPath stem) = none := by
      simpa [Files.isFile] using habsent
    rw [Usable, Files.library?, hfile] at h
    exact absurd h nofun
  | refused _ hexec =>
    have hresult := hload.result (c.artifactPath stem) w
    rw [hexec, show _ = some a from h] at hresult
    exact absurd hresult nofun

/-- **An attempt at what can be used takes it from disk,** and neither emits nor compiles. -/
theorem eq_of_usable {a : α} {r : Except CacheError α} (hload : Load.Reads load read)
    (husable : c.Usable w.files stem read a)
    (h : Attempt p c stem load source w r s w') :
    r = .ok a ∧ s = { c.stats with diskHits := c.stats.diskHits + 1 } ∧ w'.files = w.files := by
  cases h with
  | disk _ hexec =>
    have hresult := hload.result (c.artifactPath stem) w
    rw [hexec, show _ = some a from husable] at hresult
    obtain rfl := Option.some.inj hresult
    exact ⟨rfl, rfl, hload.files.files_eq hexec⟩
  | unemitted h | unwritten h | uncompiled h | compiled h =>
    exact absurd h (not_unusable hload husable)

end Attempt

/-! ### Scripted platforms -/

/-- A scripted compiler is tidy. -/
theorem tidy_script (script : Script) : (Script.platform script).Tidy := by
  have hcompile : ∀ job w, (script.compile job w).2.files.bare = w.files.bare ∧
      ∀ path, (script.compile job w).1.result = .ok path → path = job.output := by
    intro job w
    simp only [Script.compile, bind, StateT.bind, get, getThe, MonadStateOf.get, StateT.get, pure]
    cases script.part? (Script.stemOf job.target) with
    | none => exact ⟨rfl, fun path h => by cases h⟩
    | some part =>
      dsimp only
      cases part.failure? (w.outside.attempts.count (Script.stemOf job.target)) with
      | some diagnostics => exact ⟨rfl, fun path h => by cases h⟩
      | none =>
        dsimp only
        cases part.product.file? (Script.stemOf job.target) <;>
          exact ⟨rfl, fun path h => (Except.ok.inj h).symm⟩
  exact ⟨writesOnlyOutput_script script, fun job w => (hcompile job w).1,
    fun job w => (hcompile job w).2⟩

end Cache

/-- What the libraries of a script load as. -/
def Script.loader (script : Script) : Loader String where
  hasSymbol := (Script.platform script).hasSymbol
  description := fun lib => (script.partOf lib).description
  spelling := (Script.platform script).spelling

theorem Script.loadsAs (script : Script) : (Script.platform script).LoadsAs script.loader :=
  ⟨rfl, fun _ _ => rfl, rfl⟩

/-! ### A platform of transcripts -/

/-- A platform whose libraries are the texts that they were compiled from. -/
def transcriber : Platform Unit (List UInt8) where
  prepare := fun _ _ => return .ok ()
  compile := fun job w =>
    match w.files.read? job.source with
    | some text =>
      (⟨.ok job.output, 0⟩, { w with files := w.files.put job.output (.library text) })
    | none => (⟨.error ⟨job.target, "no source"⟩, 0⟩, w)
  hasSymbol := fun _ _ => true
  probe := fun _ => return ⟨0, none⟩
  invoke := fun _ _ => return {}
  spelling := fun _ => none
  get := fun _ _ _ => return {}
  set := fun _ _ _ _ => return 0
  release := fun _ _ => return ()
  rows := fun _ => []

/-- What the libraries of `transcriber` load as. -/
def transcripts : Loader (List UInt8) := ⟨fun _ _ => true, fun _ => ⟨0, none⟩, fun _ => none⟩

theorem loadsAs_transcriber : transcriber.LoadsAs transcripts := ⟨rfl, fun _ _ => rfl, rfl⟩

theorem tidy_transcriber : transcriber.Tidy := by
  have hcompile : ∀ job w, (∀ path, path ≠ job.output →
      (transcriber.compile job w).2.files.get? path = w.files.get? path) ∧
      (transcriber.compile job w).2.files.bare = w.files.bare ∧
      ∀ path, (transcriber.compile job w).1.result = .ok path → path = job.output := by
    intro job w
    unfold transcriber
    dsimp only
    split
    · exact ⟨fun path hpath => (Files.get?_put ..).trans (if_neg hpath.symm), rfl,
        fun path h => (Except.ok.inj h).symm⟩
    · exact ⟨fun _ _ => rfl, rfl, nofun⟩
  exact ⟨fun job w => (hcompile job w).1, fun job w => (hcompile job w).2.1,
    fun job w => (hcompile job w).2.2⟩

end Bindery
