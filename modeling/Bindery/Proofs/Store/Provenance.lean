/-
# What a library was compiled from

A session compiles a library from its own source: the registration of the class in its own context,
or what the emitter of the call gives there. But it compiles only what it cannot load. The stem of a
class is the hash of its name alone, so a library that was compiled in another context, without the
accessor of the class or with other headers, lies under the same stem, loads without an error, and
is served.

| library of the stem when the session opens | what the session answers with |
| --- | --- |
| can be used | this library, whatever it was compiled from |
| missing, or fails to load | a library compiled from the session's own source |

So an answer comes from the session's own source exactly if no usable library of another origin lay
at its path at the start (`Cache.madeOf_answers_iff`). A class that an earlier session compiled comes
from the registration in the context of that session (`Cache.madeOf_second_iff`). Two sessions with
different sets of reflected classes show that this need not be the registration in the context of
the later one (`Cache.registration_of_other_context`).
-/

import Bindery.Proofs.Outcome
import Bindery.Proofs.Store.Backing
import Bindery.Proofs.Text.Utf8

namespace Bindery

variable {σ σ' L α : Type}

/-- A library that compiling leaves was there before, or is compiled from the source file as it
stands. What a library was compiled from is its `origin`. -/
def Platform.CompilesFrom (p : Platform σ L) (origin : L → List UInt8) : Prop :=
  ∀ job w lib, (p.compile job w).2.files.library? job.output = some lib →
    w.files.library? job.output = some lib ∨ w.files.read? job.source = some (origin lib)

/-- A happening compiles from sources, and the sources of calls are `units`, by their hashes. -/
def Happening.Emits (origin : L → List UInt8)
    (units : String → Except Source.EmitError Source.Unit) (b : Bench σ L) : Happening σ L → Prop
  | .lookup p key emit => p.CompilesFrom origin ∧ emit b.cache.context = units key.hash
  | .ensureClass p _ => p.CompilesFrom origin
  | .elsewhere _ _ => True

/-- What is replaced is read as it was written. -/
theorem Files.read?_of_replace {files replaced : Files L} {path : String} {content : List UInt8}
    (h : files.replace path content = .ok replaced) : replaced.read? path = some content := by
  rw [read?, get?_of_replace_self h]

namespace Cache

/-- A library was compiled from a source. -/
def MadeOf (origin : L → List UInt8) (source : Except Source.EmitError Source.Unit) (lib : L) :
    Prop :=
  ∃ unit, source = .ok unit ∧ origin lib = Text.encode unit.text

/-- A library was compiled from one text only. -/
theorem MadeOf.iff_text_eq {origin : L → List UInt8} {unit other : Source.Unit} {lib : L}
    (h : MadeOf origin (.ok unit) lib) : MadeOf origin (.ok other) lib ↔ other.text = unit.text := by
  obtain ⟨unit', hunit, horigin⟩ := h
  obtain rfl := Except.ok.inj hunit
  constructor
  · rintro ⟨other', hother, horigin'⟩
    obtain rfl := Except.ok.inj hother
    exact Text.encode_injective (horigin'.symm.trans horigin)
  · intro htext
    exact ⟨other, rfl, htext ▸ horigin⟩

/-- What a session has made of the library of a stem: it keeps one that could be used at its start,
and any other library it finds there later is compiled from its source. -/
structure Renewed (c : Cache L) (start files : Files L) (stem : String)
    (read : String → L → Option α) (origin : L → List UInt8)
    (source : Except Source.EmitError Source.Unit) : Prop where
  kept : ∀ a, c.Usable start stem read a →
    files.get? (c.artifactPath stem) = start.get? (c.artifactPath stem)
  made : ∀ lib, files.library? (c.artifactPath stem) = some lib →
    start.library? (c.artifactPath stem) = some lib ∨ MadeOf origin source lib

namespace Renewed

variable {p : Platform σ L} {c d : Cache L} {start files files' : Files L} {stem : String}
  {load : String → Load σ L α} {read : String → L → Option α} {origin : L → List UInt8}
  {source : Except Source.EmitError Source.Unit}

theorem refl (c : Cache L) (files : Files L) (stem : String) (read : String → L → Option α)
    (origin : L → List UInt8) (source : Except Source.EmitError Source.Unit) :
    Renewed c files files stem read origin source := ⟨fun _ _ => rfl, fun _ h => .inl h⟩

/-- Only the file at the path matters. -/
theorem congr (h : Renewed c start files stem read origin source) (hdir : d.dir = c.dir)
    (hget : files'.get? (c.artifactPath stem) = files.get? (c.artifactPath stem)) :
    Renewed d start files' stem read origin source := by
  have hpath : d.artifactPath stem = c.artifactPath stem := by
    rw [artifactPath, artifactPath, hdir]
  constructor
  · intro a ha
    rw [hpath, hget]
    exact h.kept a (ha.congr hdir.symm (by rw [hpath]))
  · intro lib hlib
    rw [hpath, Files.library?, hget] at hlib
    rw [hpath]
    exact h.made lib hlib

/-- An attempt keeps what can be used, and compiles from its source what cannot. -/
theorem attempt {r : Except CacheError α} {s : Stats} {w w' : World σ L}
    (hp : p.CompilesFrom origin) (hload : Load.Reads load read)
    (h : Renewed c start w.files stem read origin source)
    (attempt : Attempt p c stem load source w r s w') :
    Renewed c start w'.files stem read origin source := by
  constructor
  · intro a ha
    have hnow : c.Usable w.files stem read a := ha.congr rfl (h.kept a ha)
    obtain ⟨-, -, hfiles⟩ := attempt.eq_of_usable hload hnow
    rw [hfiles]
    exact h.kept a ha
  · obtain ⟨hsource, hstaging⟩ := artifactPath_ne_source c stem stem
    have hwritten : ∀ {w₁ : World σ L} unit lib, Unusable (c.artifactPath stem) load w w₁ →
        (c.written stem unit w₁).files.library? (c.artifactPath stem) = some lib →
        start.library? (c.artifactPath stem) = some lib ∨ MadeOf origin source lib := by
      intro w₁ unit lib hunusable hlib
      rw [← Attempt.files_unusable hload.files hunusable] at h
      refine h.made lib ?_
      rw [Files.library?] at hlib ⊢
      rwa [written, Files.get?_save hsource hstaging] at hlib
    have hcompiled : ∀ {w₁ : World σ L} {unit replaced compiled w₂} lib,
        Unusable (c.artifactPath stem) load w w₁ → source = .ok unit →
        w₁.files.replace (c.sourcePath stem) (Text.encode unit.text) = .ok replaced →
        p.compile (c.job stem) (c.written stem unit w₁) = (compiled, w₂) →
        w₂.files.library? (c.artifactPath stem) = some lib →
        start.library? (c.artifactPath stem) = some lib ∨ MadeOf origin source lib := by
      intro w₁ unit replaced compiled w₂ lib hunusable hemit hwrite hcompile hlib
      have hfrom := hp (c.job stem) (c.written stem unit w₁) lib
      rw [hcompile] at hfrom
      rcases hfrom hlib with hbefore | hread
      · exact hwritten unit lib hunusable hbefore
      · have hreplaced : (c.written stem unit w₁).files = replaced := Files.save_of_replace hwrite
        have htext : (c.written stem unit w₁).files.read? (c.sourcePath stem) = _ :=
          hreplaced ▸ Files.read?_of_replace hwrite
        have horigin := Option.some.inj (htext.symm.trans hread)
        exact .inr ⟨unit, hemit, horigin.symm⟩
    intro lib hlib
    cases attempt with
    | disk _ hexec =>
      rw [hload.files.files_eq hexec] at hlib
      exact h.made lib hlib
    | unemitted hunusable =>
      rw [Attempt.files_unusable hload.files hunusable] at hlib
      exact h.made lib hlib
    | unwritten hunusable => exact hwritten _ lib hunusable hlib
    | uncompiled hunusable hemit hwrite hcompile =>
      exact hcompiled lib hunusable hemit hwrite hcompile hlib
    | compiled hunusable hemit hwrite hcompile hexec =>
      rw [hload.files.files_eq hexec] at hlib
      exact hcompiled lib hunusable hemit hwrite hcompile hlib

/-- What could be used at the start is used at last. -/
theorem eq_of_usable (h : Renewed c start files stem read origin source) {a₀ a : α}
    (hstart : c.Usable start stem read a₀) (hnow : c.Usable files stem read a) : a₀ = a := by
  have hlater : c.Usable files stem read a₀ := hstart.congr rfl (h.kept a₀ hstart)
  exact Option.some.inj (hlater.symm.trans hnow)

/-- What is used at last comes from the source of the session exactly if what could be used at its
start did. -/
theorem madeOf_iff (h : Renewed c start files stem read origin source) (libOf : α → L)
    (hread : ∀ path lib a, read path lib = some a → libOf a = lib) {a : α}
    (hnow : c.Usable files stem read a) :
    MadeOf origin source (libOf a) ↔
      ∀ a₀, c.Usable start stem read a₀ → MadeOf origin source (libOf a₀) := by
  constructor
  · intro hmade a₀ ha₀
    rwa [h.eq_of_usable ha₀ hnow]
  · intro hstart
    obtain ⟨lib, hlib, ha⟩ := Option.bind_eq_some_iff.1 hnow
    rcases h.made lib hlib with hbefore | hmade
    · exact hstart a (Option.bind_eq_some_iff.2 ⟨lib, hbefore, ha⟩)
    · rwa [hread _ lib a ha]

end Renewed

/-- Each stem of a session is as it was at the start or made of the source of the session. -/
structure Traced (V : Vocabulary) (ℓ : Loader L) (origin : L → List UInt8)
    (units : String → Except Source.EmitError Source.Unit) (start : Files L) (b : Bench σ L) :
    Prop where
  calls : ∀ s, V.calls s → Renewed b.cache start b.world.files (Key.hashOf s)
    (ℓ.artifact? (Key.hashOf s)) origin (units (Key.hashOf s))
  classes : ∀ q, V.classes q → Renewed b.cache start b.world.files (Key.ofClass q).hash
    (ℓ.binding? q (Key.ofClass q).hash) origin (.ok (registration b.cache.context q))

namespace Traced

variable {V : Vocabulary} {ℓ : Loader L} {origin : L → List UInt8}
  {units : String → Except Source.EmitError Source.Unit} {start : Files L} {b b' : Bench σ L}
  {p : Platform σ L}

/-- Work that leaves libraries alone. -/
theorem frame (h : Traced V ℓ origin units start b) (hdir : b'.cache.dir = b.cache.dir)
    (hcontext : b'.cache.context = b.cache.context)
    (hget : ∀ stem, b'.world.files.get? (b.cache.artifactPath stem) =
      b.world.files.get? (b.cache.artifactPath stem)) : Traced V ℓ origin units start b' :=
  ⟨fun s hs => (h.calls s hs).congr hdir (hget _),
    fun q hq => hcontext ▸ (h.classes q hq).congr hdir (hget _)⟩

/-- An attempt at a class renews its stem and no other. -/
theorem classAttempt (h : Traced V ℓ origin units start b) (hp : p.Tidy)
    (hfrom : p.CompilesFrom origin) (hℓ : p.LoadsAs ℓ) {name : String}
    (hname : V.classes (Spelling.normalize name)) {r : Except CacheError (Binding L)} {s : Stats}
    {w : World σ L} (attempt : ClassAttempt p name b r s w) :
    Traced V ℓ origin units start (b.worked s w) := by
  have hother : ∀ {stem}, Path.IsName stem → stem ≠ classHash name →
      w.files.get? (b.cache.artifactPath stem) =
        b.world.files.get? (b.cache.artifactPath stem) := fun hstem hne =>
    attempt.get?_files hp.writes (keepsFiles_binding _ _ _)
      (artifactPath_notMem_stemFiles hstem (isName_classHash name) hne)
  constructor
  · intro t ht
    exact (h.calls t ht).congr rfl (hother (isName_hashOf t) (V.apart ht hname))
  · intro q hq
    by_cases hqn : q = Spelling.normalize name
    · subst hqn
      have hrenewed := (h.classes _ hq).attempt hfrom (Load.reads_binding hℓ _ _) attempt
      exact hrenewed.congr rfl rfl
    · have hne : (Key.ofClass q).hash ≠ classHash name := fun heq =>
        hqn (V.classes_injective hq hname heq)
      exact (h.classes q hq).congr rfl (hother (isName_hashOf _) hne)

/-- An attempt at a call renews its stem and no other. -/
theorem callAttempt (h : Traced V ℓ origin units start b) (hp : p.Tidy)
    (hfrom : p.CompilesFrom origin) (hℓ : p.LoadsAs ℓ) {t : String} (ht : V.calls t)
    {emit : Context → Except Source.EmitError Source.Unit}
    (hemit : emit b.cache.context = units (Key.hashOf t)) {r : Except CacheError (Artifact L)}
    {s : Stats} {w : World σ L} (attempt : CallAttempt p (Key.ofSignature t) emit b r s w) :
    Traced V ℓ origin units start (b.worked s w).resolved := by
  have hother : ∀ {stem}, Path.IsName stem → stem ≠ Key.hashOf t →
      w.files.get? (b.cache.artifactPath stem) =
        b.world.files.get? (b.cache.artifactPath stem) := fun hstem hne =>
    attempt.get?_files hp.writes (keepsFiles_artifact _ _)
      (artifactPath_notMem_stemFiles hstem (isName_hashOf t) hne)
  rw [CallAttempt, hemit] at attempt
  constructor
  · intro u hu
    by_cases hut : u = t
    · subst hut
      have hrenewed := (h.calls _ hu).attempt hfrom (Load.reads_artifact hℓ _) attempt
      exact hrenewed.congr rfl rfl
    · have hne : Key.hashOf u ≠ Key.hashOf t := fun heq => hut (V.calls_injective hu ht heq)
      exact (h.calls u hu).congr rfl (hother (isName_hashOf u) hne)
  · intro q hq
    exact (h.classes q hq).congr rfl (hother (isName_hashOf _) (V.apart ht hq).symm)

theorem registering {name : String} {r : Except CacheError (Binding L)}
    (step : Registering p name b r b') (h : Traced V ℓ origin units start b) (hp : p.Tidy)
    (hfrom : p.CompilesFrom origin) (hℓ : p.LoadsAs ℓ)
    (hname : V.classes (Spelling.normalize name)) : Traced V ℓ origin units start b' := by
  cases step with
  | known => exact h
  | failed _ attempt => exact h.classAttempt hp hfrom hℓ hname attempt
  | @new d s w _ attempt =>
    exact (h.classAttempt hp hfrom hℓ hname attempt).frame rfl rfl
      (recorded_frame (b.worked s w) (classEntry (Spelling.normalize name))).1

theorem supplying {t : String} {emit : Context → Except Source.EmitError Source.Unit}
    {r : Except CacheError (Artifact L)} (step : Supplying p (Key.ofSignature t) emit b r b')
    (h : Traced V ℓ origin units start b) (hp : p.Tidy) (hfrom : p.CompilesFrom origin)
    (hℓ : p.LoadsAs ℓ) (ht : V.calls t) (hemit : emit b.cache.context = units (Key.hashOf t))
    (hclass : ∀ a s w, CallAttempt p (Key.ofSignature t) emit b (.ok a) s w →
      a.returns.kind = .object → V.classes (Spelling.normalize a.returns.typeName)) :
    Traced V ℓ origin units start b' := by
  cases step with
  | hit => exact h.frame rfl rfl fun _ => rfl
  | failed _ attempt =>
    exact (h.callAttempt hp hfrom hℓ ht hemit attempt).frame rfl rfl fun _ => rfl
  | unregistered _ attempt hkind hregistering =>
    exact registering hregistering (h.callAttempt hp hfrom hℓ ht hemit attempt) hp hfrom hℓ
      (hclass _ _ _ attempt hkind)
  | @plain a s w _ attempt _ =>
    exact (h.callAttempt hp hfrom hℓ ht hemit attempt).frame rfl rfl
      (recorded_frame (b.worked s w).resolved (callEntry (Key.ofSignature t) a)).1
  | @object a s w d b₁ _ attempt hkind hregistering =>
    exact (registering hregistering (h.callAttempt hp hfrom hℓ ht hemit attempt) hp hfrom hℓ
      (hclass _ _ _ attempt hkind)).frame rfl rfl
      (recorded_frame b₁ (callEntry (Key.ofSignature t) a)).1

/-- **One happening makes libraries of the session's own sources only.** -/
theorem next (h : Traced V ℓ origin units start b) {happening : Happening σ L}
    (within : happening.Within V ℓ b) (emits : happening.Emits origin units b) :
    Traced V ℓ origin units start (b.next happening) := by
  cases happening with
  | lookup p key emit =>
    obtain ⟨hp, hℓ, ⟨t, ht, rfl⟩, hclass⟩ := within
    exact supplying (supplying_exec p _ emit b) h hp emits.1 hℓ ht emits.2 hclass
  | ensureClass p name =>
    obtain ⟨hp, hℓ, hname⟩ := within
    exact registering (registering_exec p name b) h hp emits hℓ hname
  | elsewhere stats world =>
    have hfiles : (world b.world).files = b.world.files := within b.world
    exact h.frame rfl rfl fun _ => by simp only [Bench.next, hfiles]

theorem of_start (b : Bench σ L) : Traced V ℓ origin units b.world.files b :=
  ⟨fun _ _ => .refl _ _ _ _ _ _, fun _ _ => .refl _ _ _ _ _ _⟩

/-- A session makes libraries of its own sources only. -/
theorem after {hs : List (Happening σ L)} (within : b.Throughout (Happening.Within V ℓ) hs)
    (emits : b.Throughout (Happening.Emits origin units) hs) :
    Traced V ℓ origin units b.world.files (b.after hs) := by
  have both : b.Throughout (fun b h => h.Within V ℓ b ∧ h.Emits origin units b) hs :=
    fun pre h post heq => ⟨within pre h post heq, emits pre h post heq⟩
  exact both.induction (fun _ _ hb hboth => hb.next hboth.1 hboth.2) (of_start b)

end Traced

/-! ### Answers -/

section

variable {V : Vocabulary} {ℓ : Loader L} {origin : L → List UInt8}
  {units : String → Except Source.EmitError Source.Unit} {b : Bench σ L}
  {hs pre : List (Happening σ L)} {p : Platform σ L}

/-- The binding of a class that a session knows is read off a library that it found or made. -/
theorem renewed_of_class? (opened : b.Opened) (within : b.Throughout (Happening.Within V ℓ) hs)
    (emits : b.Throughout (Happening.Emits origin units) hs) {q : String} {d : Binding L}
    (hknown : (b.after hs).cache.class? q = some d) :
    b.cache.Usable (b.after hs).world.files (Key.ofClass q).hash
        (ℓ.binding? q (Key.ofClass q).hash) d ∧
      Renewed b.cache b.world.files (b.after hs).world.files (Key.ofClass q).hash
        (ℓ.binding? q (Key.ofClass q).hash) origin (.ok (registration b.cache.context q)) := by
  obtain ⟨hdir, hcontext⟩ := dir_after b hs
  obtain ⟨hq, husable, -⟩ := (Backed.after opened within).classes q d hknown
  have hrenewed := (Traced.after within emits).classes q hq
  rw [hcontext] at hrenewed
  exact ⟨husable.congr hdir.symm rfl, hrenewed.congr hdir.symm rfl⟩

/-- A class that was answered is known afterwards. -/
theorem class?_after_of_ok (pre : List (Happening σ L)) {name : String} {d : Binding L}
    (hd : (exec (ensureClass p name) (b.after pre)).1 = .ok d) :
    (b.after (pre ++ [.ensureClass p name])).cache.class? (Spelling.normalize name) = some d := by
  rw [Bench.after, List.foldl_append]
  exact (registering_of_exec (Prod.ext hd rfl)).class?_of_ok

/-- A call that was answered is loaded afterwards. -/
theorem loaded?_after_of_ok {key : Key} {emit : Context → Except Source.EmitError Source.Unit}
    {a : Artifact L} (ha : (exec (lookup p key emit) (b.after pre)).1 = .ok a) :
    (b.after (pre ++ [.lookup p key emit])).cache.loaded? key.hash = some a := by
  rw [Bench.after, List.foldl_append]
  exact (supplying_of_exec (Prod.ext ha rfl)).loaded?_of_ok

/-- A class is answered from the session's own source exactly if what could be used at its stem at
the start was compiled from that. -/
theorem madeOf_class_iff (opened : b.Opened) {name : String} {d : Binding L}
    (within : b.Throughout (Happening.Within V ℓ) (pre ++ [.ensureClass p name]))
    (emits : b.Throughout (Happening.Emits origin units) (pre ++ [.ensureClass p name]))
    (hd : (exec (ensureClass p name) (b.after pre)).1 = .ok d) :
    MadeOf origin (.ok (registration b.cache.context (Spelling.normalize name))) d.lib ↔
      ∀ d₀, b.cache.Usable b.world.files (classHash name)
          (ℓ.binding? (Spelling.normalize name) (classHash name)) d₀ →
        MadeOf origin (.ok (registration b.cache.context (Spelling.normalize name))) d₀.lib := by
  obtain ⟨husable, hrenewed⟩ := renewed_of_class? opened within emits (class?_after_of_ok pre hd)
  exact hrenewed.madeOf_iff Binding.lib (fun _ _ _ => Loader.lib_of_binding?) husable

/-- A call is answered from the source that its emitter gives exactly if what could be used at its
stem at the start was compiled from that. -/
theorem madeOf_call_iff (opened : b.Opened) {key : Key}
    {emit : Context → Except Source.EmitError Source.Unit} {a : Artifact L}
    (within : b.Throughout (Happening.Within V ℓ) (pre ++ [.lookup p key emit]))
    (emits : b.Throughout (Happening.Emits origin units) (pre ++ [.lookup p key emit]))
    (ha : (exec (lookup p key emit) (b.after pre)).1 = .ok a) :
    MadeOf origin (emit b.cache.context) a.lib ↔
      ∀ a₀, b.cache.Usable b.world.files key.hash (ℓ.artifact? key.hash) a₀ →
        MadeOf origin (emit b.cache.context) a₀.lib := by
  obtain ⟨hdir, -⟩ := dir_after b (pre ++ [.lookup p key emit])
  have hemit := (emits pre _ [] rfl).2
  rw [(dir_after b pre).2] at hemit
  obtain ⟨s, hs, hhash, husable, -⟩ :=
    (Backed.after opened within).calls _ a (loaded?_after_of_ok ha)
  have hrenewed := (Traced.after within emits).calls s hs
  rw [← hhash, ← hemit] at hrenewed
  exact (hrenewed.congr hdir.symm rfl).madeOf_iff Artifact.lib
    (fun _ _ _ h => (Loader.of_artifact? h).1) (husable.congr hdir.symm rfl)

end

/-- **Whether an answer comes from the session's own source.** In any session over any build
directory, the library of an answer was compiled from the source that the session has for it, in its
own context, exactly if any library that could be used at its path when the session opened was. A
library that could be used is served, whatever it was compiled from; otherwise a new one is
compiled. -/
theorem madeOf_answers_iff {V : Vocabulary} {ℓ : Loader L} {origin : L → List UInt8}
    {units : String → Except Source.EmitError Source.Unit} {b : Bench σ L} (opened : b.Opened)
    {hs : List (Happening σ L)} (within : b.Throughout (Happening.Within V ℓ) hs)
    (emits : b.Throughout (Happening.Emits origin units) hs) :
    (∀ pre p name post d, hs = pre ++ .ensureClass p name :: post →
      (exec (ensureClass p name) (b.after pre)).1 = .ok d →
      (MadeOf origin (.ok (registration b.cache.context (Spelling.normalize name))) d.lib ↔
        ∀ d₀, b.cache.Usable b.world.files (classHash name)
            (ℓ.binding? (Spelling.normalize name) (classHash name)) d₀ →
          MadeOf origin (.ok (registration b.cache.context (Spelling.normalize name))) d₀.lib)) ∧
    ∀ pre p key emit post a, hs = pre ++ .lookup p key emit :: post →
      (exec (lookup p key emit) (b.after pre)).1 = .ok a →
      (MadeOf origin (emit b.cache.context) a.lib ↔
        ∀ a₀, b.cache.Usable b.world.files key.hash (ℓ.artifact? key.hash) a₀ →
          MadeOf origin (emit b.cache.context) a₀.lib) := by
  constructor
  · rintro pre p name post d rfl hd
    rw [List.append_cons] at within emits
    exact madeOf_class_iff opened within.left emits.left hd
  · rintro pre p key emit post a rfl ha
    rw [List.append_cons] at within emits
    exact madeOf_call_iff opened within.left emits.left ha

/-! ### Two sessions -/

/-- What could be used before a build directory was opened again can be used afterwards. -/
theorem usable_of_exec_ofDirectory {p : Platform σ L} (hp : p.PreparesRules) {c d : Cache L}
    {files : Files L} {w w' : World σ L} (hfiles : w.files = files) {context : Context}
    (h : exec (ofDirectory p c.dir context) w = (.ok d, w')) {stem : String}
    {read : String → L → Option α} {a : α} (husable : c.Usable files stem read a) :
    d.Usable w'.files stem read a := by
  have hdir : d.dir = c.dir := (of_exec_ofDirectory h).1
  refine husable.congr hdir ?_
  have hget := (get?_of_exec_ofDirectory hp h).1 stem
  rwa [hfiles] at hget

/-- **What a second session has of a class that the first one compiled.** It is the library that was
compiled from the registration in the context of the first. So it comes from the registration in the
context of the second exactly if both have the same text. -/
theorem madeOf_second_iff {V V' : Vocabulary} {ℓ : Loader L} {origin : L → List UInt8}
    {units units' : String → Except Source.EmitError Source.Unit} {b : Bench σ L}
    (opened : b.Opened) {hs : List (Happening σ L)}
    (within : b.Throughout (Happening.Within V ℓ) hs)
    (emits : b.Throughout (Happening.Emits origin units) hs) {q : String} {d₁ d₂ : Binding L}
    (first : (b.after hs).cache.class? q = some d₁)
    (new : ∀ d₀, ¬ b.cache.Usable b.world.files (Key.ofClass q).hash
      (ℓ.binding? q (Key.ofClass q).hash) d₀)
    {p : Platform σ' L} (hp : p.PreparesRules) {w : World σ' L}
    (hfiles : w.files = (b.after hs).world.files) {context : Context} {b' : Bench σ' L}
    (hopen : exec (ofDirectory p b.cache.dir context) w = (.ok b'.cache, b'.world))
    {hs' : List (Happening σ' L)} (within' : b'.Throughout (Happening.Within V' ℓ) hs')
    (emits' : b'.Throughout (Happening.Emits origin units') hs')
    (second : (b'.after hs').cache.class? q = some d₂) :
    MadeOf origin (.ok (registration b.cache.context q)) d₂.lib ∧
      (MadeOf origin (.ok (registration context q)) d₂.lib ↔
        (registration context q).text = (registration b.cache.context q).text) := by
  obtain ⟨husable, hrenewed⟩ := renewed_of_class? opened within emits first
  have hmade : MadeOf origin (.ok (registration b.cache.context q)) d₁.lib :=
    (hrenewed.madeOf_iff Binding.lib (fun _ _ _ => Loader.lib_of_binding?) husable).2
      fun d₀ hd₀ => absurd hd₀ (new d₀)
  have hleft := usable_of_exec_ofDirectory hp hfiles hopen husable
  obtain ⟨husable', hrenewed'⟩ := renewed_of_class? ⟨p, _, _, _, hopen⟩ within' emits' second
  obtain rfl := hrenewed'.eq_of_usable hleft husable'
  exact ⟨hmade, hmade.iff_text_eq⟩

theorem compilesFrom_transcriber : transcriber.CompilesFrom id := by
  intro job w lib hlib
  unfold transcriber at hlib
  dsimp only at hlib
  split at hlib
  · rename_i text htext
    rw [Files.library?, Files.get?_put, if_pos rfl] at hlib
    rw [htext, ← Option.some.inj hlib]
    exact .inr rfl
  · exact .inl hlib

/-- A cache opened at `/build` over some files, as far as that goes. -/
def openedOver (context : Context) (files : Files (List UInt8)) : Bench Unit (List UInt8) :=
  let opening := exec (ofDirectory transcriber "/build" context) ⟨files, (), 0⟩
  ⟨opening.1.toOption.getD { dir := "/build", context }, opening.2⟩

theorem exec_openedOver {context : Context} {files : Files (List UInt8)}
    (h : (exec (ofDirectory transcriber "/build" context) ⟨files, (), 0⟩).1.isOk = true) :
    exec (ofDirectory transcriber "/build" context) ⟨files, (), 0⟩ =
      (.ok (openedOver context files).cache, (openedOver context files).world) := by
  unfold openedOver
  rcases hopen : exec (ofDirectory transcriber "/build" context) ⟨files, (), 0⟩ with ⟨_ | c, w⟩
  · rw [hopen] at h
    exact absurd h nofun
  · rfl

/-- A session that asks for one class. -/
def oneClass : List (Happening Unit (List UInt8)) := [.ensureClass transcriber "P"]

/-- The texts of `oneClass`. -/
def oneClassTexts : Vocabulary where
  calls := fun _ => False
  classes := (· = "P")
  calls_injective := nofun
  classes_injective := fun hq hr _ => hq.trans hr.symm
  apart := nofun

/-- The first session, in whose context `P` has no accessor. -/
def plainSession : Bench Unit (List UInt8) := openedOver {} {}

/-- The second session, in whose context `P` has one. -/
def reflectedSession : Bench Unit (List UInt8) :=
  openedOver { reflected := ["P"] } (plainSession.after oneClass).world.files

theorem within_oneClass (b : Bench Unit (List UInt8)) :
    b.Throughout (Happening.Within oneClassTexts transcripts) oneClass := by
  refine .cons ⟨tidy_transcriber, loadsAs_transcriber, ?_⟩ (Bench.throughout_nil _ _)
  show Spelling.normalize "P" = "P"
  decide +kernel

theorem emits_oneClass (b : Bench Unit (List UInt8)) :
    b.Throughout (Happening.Emits id fun _ => .ok {}) oneClass :=
  .cons compilesFrom_transcriber (Bench.throughout_nil _ _)

theorem class?_oneClass {b : Bench Unit (List UInt8)} {d : Binding (List UInt8)}
    (h : (exec (ensureClass transcriber "P") b).1 = .ok d) :
    (b.after oneClass).cache.class? "P" = some d := by
  have hname : Spelling.normalize "P" = "P" := by decide +kernel
  have hknown := class?_after_of_ok [] h
  rwa [hname] at hknown

/-- Both sessions open, and both answer. -/
theorem exec_oneClass :
    (exec (ofDirectory transcriber "/build" {}) ⟨{}, (), 0⟩).1.isOk = true ∧
    (exec (ensureClass transcriber "P") plainSession).1.isOk = true ∧
    (exec (ofDirectory transcriber "/build" { reflected := ["P"] })
      ⟨(plainSession.after oneClass).world.files, (), 0⟩).1.isOk = true ∧
    (exec (ensureClass transcriber "P") reflectedSession).1.isOk = true := by
  decide +kernel

theorem registration_reflected_ne :
    (registration { reflected := ["P"] } "P").text ≠ (registration {} "P").text := by
  decide +kernel

theorem opened_openedOver {context : Context} {files : Files (List UInt8)}
    (h : (exec (ofDirectory transcriber "/build" context) ⟨files, (), 0⟩).1.isOk = true) :
    (openedOver context files).Opened ∧ (openedOver context files).cache.context = context :=
  ⟨⟨_, _, _, _, exec_openedOver h⟩, (of_exec_ofDirectory (exec_openedOver h)).2.1⟩

theorem exists_of_isOk {ε : Type} {r : Except ε α} (h : r.isOk = true) : ∃ a, r = .ok a := by
  cases r with
  | error => exact absurd h nofun
  | ok a => exact ⟨a, rfl⟩

theorem dir_plainSession : plainSession.cache.dir = "/build" :=
  (of_exec_ofDirectory (exec_openedOver exec_oneClass.1)).1

/-- There is nothing to use when the first session opens. -/
theorem not_usable_plainSession (stem : String) (read : String → List UInt8 → Option α) (a : α) :
    ¬ plainSession.cache.Usable plainSession.world.files stem read a := by
  have hget := (get?_of_exec_ofDirectory preparesRules_transcriber
    (exec_openedOver exec_oneClass.1)).1 stem
  rw [Usable, Files.library?, artifactPath, dir_plainSession,
    show plainSession = openedOver {} {} from rfl, hget]
  intro h
  cases h

/-- The hypotheses of `madeOf_answers_iff` are satisfiable: a session over an empty directory
compiles its class from its own registration. -/
theorem madeOf_plainSession :
    plainSession.Opened ∧
    plainSession.Throughout (Happening.Within oneClassTexts transcripts) oneClass ∧
    plainSession.Throughout (Happening.Emits id fun _ => .ok {}) oneClass ∧
    ∃ d, (exec (ensureClass transcriber "P") plainSession).1 = .ok d ∧
      MadeOf id (.ok (registration plainSession.cache.context (Spelling.normalize "P"))) d.lib := by
  have opened := (opened_openedOver exec_oneClass.1).1
  obtain ⟨d, hd⟩ := exists_of_isOk exec_oneClass.2.1
  refine ⟨opened, within_oneClass _, emits_oneClass _, d, hd, ?_⟩
  refine ((madeOf_answers_iff opened (within_oneClass _) (emits_oneClass _)).1 [] _ "P" [] d rfl
    hd).2 fun d₀ hd₀ => ?_
  exact absurd hd₀ (not_usable_plainSession _ _ _)

/-- The class of the second session comes from the registration of the first one, which has no
accessor. -/
theorem registration_of_other_context :
    transcriber.CompilesFrom id ∧
    plainSession.Opened ∧ plainSession.cache.context = {} ∧
    exec (ofDirectory transcriber "/build" { reflected := ["P"] })
        ⟨(plainSession.after oneClass).world.files, (), 0⟩ =
      (.ok reflectedSession.cache, reflectedSession.world) ∧
    ∃ d, (exec (ensureClass transcriber "P") reflectedSession).1 = .ok d ∧
      MadeOf id (.ok (registration {} "P")) d.lib ∧
      ¬ MadeOf id (.ok (registration { reflected := ["P"] } "P")) d.lib := by
  obtain ⟨hplain, hfirst, hreflected, hsecond⟩ := exec_oneClass
  obtain ⟨opened, hcontext⟩ : plainSession.Opened ∧ plainSession.cache.context = {} :=
    opened_openedOver hplain
  obtain ⟨d₁, hd₁⟩ := exists_of_isOk hfirst
  obtain ⟨d₂, hd₂⟩ := exists_of_isOk hsecond
  have hopen : exec (ofDirectory transcriber plainSession.cache.dir { reflected := ["P"] })
        ⟨(plainSession.after oneClass).world.files, (), 0⟩ =
      (.ok reflectedSession.cache, reflectedSession.world) := by
    rw [dir_plainSession]
    exact exec_openedOver hreflected
  have hfiles : ∀ files : Files (List UInt8),
      (⟨files, (), 0⟩ : World Unit (List UInt8)).files = files := fun _ => rfl
  obtain ⟨hmade, hown⟩ := madeOf_second_iff opened (within_oneClass _) (emits_oneClass _)
    (class?_oneClass hd₁) (not_usable_plainSession _ _) preparesRules_transcriber (hfiles _)
    hopen (within_oneClass _) (emits_oneClass _) (class?_oneClass hd₂)
  rw [hcontext] at hmade hown
  rw [dir_plainSession] at hopen
  exact ⟨compilesFrom_transcriber, opened, hcontext, hopen, d₂, hd₂, hmade,
    fun hsame => registration_reflected_ne (hown.1 hsame)⟩

end Cache
end Bindery
