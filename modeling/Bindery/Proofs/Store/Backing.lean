/-
# What is in memory lies in the build directory

A session that works with texts whose hashes tell them apart (`Vocabulary`) never overwrites a
library that it uses: the stems that it works on are hashes of what it has not loaded yet. So what
it has in memory can be loaded again at any time, with the same outcome, and the index says so
(`Cache.Backed`).

| in memory | on disk | in the index |
| --- | --- | --- |
| artifact of a call | a library that loads as this artifact | its signature, kind and type |
| binding of a class | a library that loads as this binding | its name |

Nothing is in memory before the index was saved once, and from then on the file holds the index,
unless a directory lies in its way (`Bench.Saved`).
-/

import Bindery.Proofs.Store.Directory
import Bindery.Proofs.Store.Index

namespace Bindery

variable {σ L α : Type}

/-- The texts that calls and classes go by. The hashes of the calls are told apart by their
signatures, those of the classes by their normalised names, and no call has the hash of a class. -/
structure Vocabulary where
  calls : String → Prop
  classes : String → Prop
  calls_injective : ∀ {s t}, calls s → calls t → Key.hashOf s = Key.hashOf t → s = t
  classes_injective : ∀ {q r}, classes q → classes r →
    (Key.ofClass q).hash = (Key.ofClass r).hash → q = r
  apart : ∀ {s q}, calls s → classes q → Key.hashOf s ≠ (Key.ofClass q).hash

/-- The vocabulary of one call and one class. -/
def Vocabulary.ofPair (s q : String) (apart : Key.hashOf s ≠ (Key.ofClass q).hash) :
    Vocabulary where
  calls := (· = s)
  classes := (· = q)
  calls_injective := fun ht hu _ => ht.trans hu.symm
  classes_injective := fun hr ht _ => hr.trans ht.symm
  apart := by
    rintro t r rfl rfl
    exact apart

/-- A happening asks for what is in a vocabulary, of a tidy compiler and libraries that load in one
way. An object that a call returns has a class in the vocabulary. -/
def Happening.Within (V : Vocabulary) (ℓ : Loader L) (b : Bench σ L) : Happening σ L → Prop
  | .lookup p key emit => p.Tidy ∧ p.LoadsAs ℓ ∧ (∃ s, V.calls s ∧ key = Key.ofSignature s) ∧
    ∀ a s w, Cache.CallAttempt p key emit b (.ok a) s w → a.returns.kind = .object →
      V.classes (Spelling.normalize a.returns.typeName)
  | .ensureClass p name => p.Tidy ∧ p.LoadsAs ℓ ∧ V.classes (Spelling.normalize name)
  | .elsewhere _ world => ∀ w, (world w).files = w.files

namespace Bench

/-- Everything in a run fulfils something, at the bench at which it happens. -/
def Throughout (fulfils : Bench σ L → Happening σ L → Prop) (b : Bench σ L)
    (hs : List (Happening σ L)) : Prop :=
  ∀ pre h post, hs = pre ++ h :: post → fulfils (b.after pre) h

theorem throughout_nil (fulfils : Bench σ L → Happening σ L → Prop) (b : Bench σ L) :
    b.Throughout fulfils [] := fun _ _ _ h => absurd h (by simp)

/-- A run is good if its first happening is and the rest is from then on. -/
theorem Throughout.cons {fulfils : Bench σ L → Happening σ L → Prop} {b : Bench σ L}
    {h : Happening σ L} {hs : List (Happening σ L)} (first : fulfils b h)
    (rest : (b.next h).Throughout fulfils hs) : b.Throughout fulfils (h :: hs) := by
  rintro (_ | ⟨h', pre⟩) h'' post heq
  · obtain ⟨rfl, -⟩ := List.cons.inj heq
    exact first
  · obtain ⟨rfl, rfl⟩ := List.cons.inj heq
    exact rest pre h'' post rfl

/-- The start of a good run is good. -/
theorem Throughout.left {fulfils : Bench σ L → Happening σ L → Prop} {b : Bench σ L}
    {hs more : List (Happening σ L)} (all : b.Throughout fulfils (hs ++ more)) :
    b.Throughout fulfils hs := by
  rintro pre h post rfl
  exact all pre h (post ++ more) (by simp)

/-- What happenings of a kind preserve, a run of them preserves. -/
theorem Throughout.induction {fulfils : Bench σ L → Happening σ L → Prop} {P : Bench σ L → Prop}
    (step : ∀ b h, P b → fulfils b h → P (b.next h)) {b : Bench σ L} {hs : List (Happening σ L)}
    (start : P b) (all : b.Throughout fulfils hs) : P (b.after hs) := by
  induction hs generalizing b with
  | nil => exact start
  | cons h hs ih =>
    refine ih (step b h start (all [] h hs rfl)) fun pre h' post heq => ?_
    exact all (h :: pre) h' post (by rw [heq]; rfl)

/-- A directory lies in the way of the index. -/
def blocked (b : Bench σ L) : Bool := b.world.files.blocked b.cache.indexPath

/-- The index is in order, and its file holds it if it can. -/
structure Saved (b : Bench σ L) : Prop where
  sorted : b.cache.index.Sorted
  file : b.blocked = false →
    b.world.files.get? b.cache.indexPath = some (.bytes (Archive.write b.cache.index))

theorem saved_recorded (b : Bench σ L) (e : IndexEntry) : (b.recorded e).Saved := by
  refine ⟨Index.sorted_sort _, fun hfree => ?_⟩
  have hbefore : b.world.files.blocked b.cache.indexPath = false :=
    (Cache.sameBeyond_recorded b e).blocked isName_indexFile ▸ hfree
  have hunblocked : ¬ b.world.files.blocked b.cache.indexPath = true := by
    rw [hbefore]
    decide
  exact (Files.get?_save_self b.world.files isName_indexFile _).trans (if_neg hunblocked)

end Bench

namespace Cache

/-- What the index records about a call. -/
def callEntry (key : Key) (a : Artifact L) : IndexEntry :=
  ⟨key.hash, key.signature, a.returns.kind.code, a.returns.typeName⟩

/-- What the index records about a class. -/
def classEntry (qualified : String) : IndexEntry :=
  ⟨(Key.ofClass qualified).hash, (Key.ofClass qualified).signature, IndexEntry.registration,
    qualified⟩

/-- What is in memory lies in the build directory and stands in the index. -/
structure Backed (V : Vocabulary) (ℓ : Loader L) (b : Bench σ L) : Prop where
  calls : ∀ hash a, b.cache.loaded? hash = some a → ∃ s, V.calls s ∧ hash = Key.hashOf s ∧
    b.cache.Usable b.world.files hash (ℓ.artifact? hash) a ∧
    b.cache.index.get? hash = some (callEntry (Key.ofSignature s) a)
  classes : ∀ q d, b.cache.class? q = some d → V.classes q ∧
    b.cache.Usable b.world.files (Key.ofClass q).hash (ℓ.binding? q (Key.ofClass q).hash) d ∧
    b.cache.index.get? (Key.ofClass q).hash = some (classEntry q)
  returned : ∀ hash a, b.cache.loaded? hash = some a → a.returns.kind = .object →
    ∃ d, b.cache.class? (Spelling.normalize a.returns.typeName) = some d
  saved : b.cache.loaded ≠ [] ∨ b.cache.classes ≠ [] → b.Saved

/-- What recording an entry leaves as it was: the libraries, and the entries of other hashes. -/
theorem recorded_frame (b : Bench σ L) (e : IndexEntry) :
    (∀ stem, (b.recorded e).world.files.get? (b.cache.artifactPath stem) =
      b.world.files.get? (b.cache.artifactPath stem)) ∧
    ∀ hash, (b.recorded e).cache.index.get? hash =
      if e.hash = hash then some e else b.cache.index.get? hash := by
  refine ⟨fun stem => ?_, fun hash => ?_⟩
  · obtain ⟨hne, hstaging⟩ := artifactPath_ne_index b.cache stem
    exact Files.get?_save hne hstaging
  · exact (Index.get?_sort _ hash).trans (Index.get?_upsert _ e hash)

/-- Asking for a class leaves the libraries of other stems alone. -/
theorem Registering.get?_artifactPath {p : Platform σ L} {name stem : String} {b b' : Bench σ L}
    {r : Except CacheError (Binding L)} (h : Registering p name b r b') (hp : p.Tidy)
    (hstem : Path.IsName stem) (hne : stem ≠ classHash name) :
    b'.world.files.get? (b.cache.artifactPath stem) =
      b.world.files.get? (b.cache.artifactPath stem) := by
  have hpath := artifactPath_notMem_stemFiles (c := b.cache) hstem (isName_classHash name) hne
  cases h with
  | known => rfl
  | failed _ attempt => exact attempt.get?_files hp.writes (keepsFiles_binding _ _ _) hpath
  | @new d s w _ attempt =>
    have hrecorded := (recorded_frame (b.worked s w) (classEntry (Spelling.normalize name))).1 stem
    exact hrecorded.trans (attempt.get?_files hp.writes (keepsFiles_binding _ _ _) hpath)

namespace Backed

variable {V : Vocabulary} {ℓ : Loader L} {b b' : Bench σ L}

theorem loaded_ne_nil {c : Cache L} {hash : String} {a : Artifact L}
    (h : c.loaded? hash = some a) : c.loaded ≠ [] := by
  intro hnil
  rw [loaded?, hnil] at h
  cases h

theorem classes_ne_nil {c : Cache L} {q : String} {d : Binding L} (h : c.class? q = some d) :
    c.classes ≠ [] := by
  intro hnil
  rw [class?, hnil] at h
  cases h

/-- Work that leaves the memories, their libraries and the index alone. -/
theorem frame (h : Backed V ℓ b) (hdir : b'.cache.dir = b.cache.dir)
    (hloaded : b'.cache.loaded = b.cache.loaded) (hclasses : b'.cache.classes = b.cache.classes)
    (hindex : b'.cache.index = b.cache.index)
    (hcalls : ∀ hash a, b.cache.loaded? hash = some a →
      b'.world.files.get? (b.cache.artifactPath hash) =
        b.world.files.get? (b.cache.artifactPath hash))
    (hregistered : ∀ q d, b.cache.class? q = some d →
      b'.world.files.get? (b.cache.artifactPath (Key.ofClass q).hash) =
        b.world.files.get? (b.cache.artifactPath (Key.ofClass q).hash))
    (hfile : b'.world.files.get? b.cache.indexPath = b.world.files.get? b.cache.indexPath)
    (hblocked : b'.world.files.blocked b.cache.indexPath = b.blocked) : Backed V ℓ b' := by
  have hpath : b'.cache.indexPath = b.cache.indexPath := by rw [indexPath, indexPath, hdir]
  constructor
  · intro hash a ha
    rw [loaded?, hloaded] at ha
    obtain ⟨s, hs, hhash, husable, hentry⟩ := h.calls hash a ha
    exact ⟨s, hs, hhash, husable.congr hdir (hcalls hash a ha), hindex ▸ hentry⟩
  · intro q d hd
    rw [class?, hclasses] at hd
    obtain ⟨hq, husable, hentry⟩ := h.classes q d hd
    exact ⟨hq, husable.congr hdir (hregistered q d hd), hindex ▸ hentry⟩
  · intro hash a ha hkind
    rw [loaded?, hloaded] at ha
    rw [class?, hclasses]
    exact h.returned hash a ha hkind
  · intro hmemory
    rw [hloaded, hclasses] at hmemory
    obtain ⟨hsorted, hsaved⟩ := h.saved hmemory
    refine ⟨hindex ▸ hsorted, fun hfree => ?_⟩
    rw [Bench.blocked, hpath, hblocked] at hfree
    rw [hpath, hfile, hindex]
    exact hsaved hfree

/-- Counting leaves everything alone. -/
theorem count (h : Backed V ℓ b) (f : Stats → Stats) : Backed V ℓ (b.count f) :=
  ⟨h.calls, h.classes, h.returned, fun hmemory =>
    ⟨(h.saved hmemory).sorted, (h.saved hmemory).file⟩⟩

/-- An attempt at a stem that nothing in memory goes by leaves what is in memory alone. -/
theorem worked {p : Platform σ L} {stem : String} {load : String → Load σ L α}
    {source : Except Source.EmitError Source.Unit} {r : Except CacheError α} {s : Stats}
    {w : World σ L} (h : Backed V ℓ b) (hp : p.Tidy) (hload : Load.KeepsFiles load)
    (hstem : Path.IsName stem) (hcalls : ∀ hash a, b.cache.loaded? hash = some a → hash ≠ stem)
    (hclasses : ∀ q d, b.cache.class? q = some d → (Key.ofClass q).hash ≠ stem)
    (attempt : Attempt p b.cache stem load source b.world r s w) : Backed V ℓ (b.worked s w) := by
  have hkeeps : ∀ path, path ∉ b.cache.stemFiles stem →
      w.files.get? path = b.world.files.get? path := fun path =>
    attempt.get?_files hp.writes hload
  refine h.frame rfl rfl rfl rfl ?_ ?_ (hkeeps _ (indexPath_notMem_stemFiles b.cache stem)) ?_
  · intro hash a ha
    obtain ⟨t, -, rfl, -⟩ := h.calls hash a ha
    exact hkeeps _ (artifactPath_notMem_stemFiles (isName_hashOf t) hstem (hcalls _ a ha))
  · intro q d hd
    exact hkeeps _ (artifactPath_notMem_stemFiles (isName_hashOf _) hstem (hclasses q d hd))
  · exact (attempt.sameBeyond hp hload hstem).blocked isName_indexFile

/-- A new class whose library can be used joins the memory. -/
theorem registered (h : Backed V ℓ b) {q : String} {d : Binding L}
    (hnew : b.cache.class? q = none) (hq : V.classes q)
    (husable : b.cache.Usable b.world.files (Key.ofClass q).hash
      (ℓ.binding? q (Key.ofClass q).hash) d) : Backed V ℓ (b.registered q d) := by
  obtain ⟨hfiles, hindex⟩ := recorded_frame
    (b.count fun s => { s with classRegistrations := s.classRegistrations + 1 }) (classEntry q)
  constructor
  · intro hash a ha
    obtain ⟨s, hs, rfl, husable', hentry⟩ := h.calls hash a ha
    refine ⟨s, hs, rfl, husable'.congr rfl (hfiles _), (hindex _).trans ?_⟩
    exact (if_neg (V.apart hs hq).symm).trans hentry
  · intro r d' hd'
    rcases cases_of_class?_registered hd' with ⟨rfl, rfl⟩ | ⟨hr, hbefore⟩
    · exact ⟨hq, husable.congr rfl (hfiles _), (hindex _).trans (if_pos rfl)⟩
    · obtain ⟨hclass, husable', hentry⟩ := h.classes r d' hbefore
      refine ⟨hclass, husable'.congr rfl (hfiles _), (hindex _).trans ?_⟩
      exact (if_neg fun heq => hr (V.classes_injective hq hclass heq)).trans hentry
  · intro hash a ha hkind
    obtain ⟨d', hd'⟩ := h.returned hash a ha hkind
    exact ⟨d', (keeps_registered d hnew).classes _ _ hd'⟩
  · intro _
    obtain ⟨hsorted, hfile⟩ := Bench.saved_recorded
      (b.count fun s => { s with classRegistrations := s.classRegistrations + 1 }) (classEntry q)
    exact ⟨hsorted, hfile⟩

/-- A new call whose library can be used joins the memory, if the class of an object that it
returns is known. -/
theorem supplied (h : Backed V ℓ b) {s : String} {a : Artifact L} (hs : V.calls s)
    (husable : b.cache.Usable b.world.files (Key.hashOf s) (ℓ.artifact? (Key.hashOf s)) a)
    (hreturned : a.returns.kind = .object →
      ∃ d, b.cache.class? (Spelling.normalize a.returns.typeName) = some d) :
    Backed V ℓ (b.supplied (Key.ofSignature s) a) := by
  obtain ⟨hfiles, hindex⟩ := recorded_frame b (callEntry (Key.ofSignature s) a)
  constructor
  · intro hash a' ha'
    rcases cases_of_loaded?_supplied ha' with ⟨rfl, rfl⟩ | ⟨hne, ha'⟩
    · exact ⟨s, hs, rfl, husable.congr rfl (hfiles _), (hindex _).trans (if_pos rfl)⟩
    · obtain ⟨t, ht, rfl, husable', hentry⟩ := h.calls hash a' ha'
      have hother := (hindex _).trans ((if_neg hne).trans hentry)
      exact ⟨t, ht, rfl, husable'.congr rfl (hfiles _), hother⟩
  · intro q d hd
    obtain ⟨hq, husable', hentry⟩ := h.classes q d hd
    refine ⟨hq, husable'.congr rfl (hfiles _), (hindex _).trans ?_⟩
    exact (if_neg (V.apart hs hq)).trans hentry
  · intro hash a' ha' hkind
    rcases cases_of_loaded?_supplied ha' with ⟨-, rfl⟩ | ⟨-, ha'⟩
    · exact hreturned hkind
    · exact h.returned hash a' ha' hkind
  · intro _
    obtain ⟨hsorted, hfile⟩ := Bench.saved_recorded b (callEntry (Key.ofSignature s) a)
    exact ⟨hsorted, hfile⟩

/-- Asking for a class keeps what is in memory on disk. -/
theorem registering {p : Platform σ L} {name : String} {r : Except CacheError (Binding L)}
    (step : Registering p name b r b') (hp : p.Tidy) (hℓ : p.LoadsAs ℓ)
    (hname : V.classes (Spelling.normalize name)) (h : Backed V ℓ b) : Backed V ℓ b' := by
  have hworked : b.cache.class? (Spelling.normalize name) = none → ∀ {r s w},
      ClassAttempt p name b r s w → Backed V ℓ (b.worked s w) := by
    intro hnew r s w attempt
    refine h.worked hp (keepsFiles_binding _ _ _) (isName_classHash name) ?_ ?_ attempt
    · intro hash a ha
      obtain ⟨t, ht, rfl, -⟩ := h.calls hash a ha
      exact V.apart ht hname
    · intro q d hd heq
      have hq := V.classes_injective (h.classes q d hd).1 hname heq
      rw [hq, hnew] at hd
      exact absurd hd nofun
  cases step with
  | known => exact h
  | failed hnew attempt => exact hworked hnew attempt
  | @new d s w hnew attempt =>
    have husable : b.cache.Usable w.files (classHash name)
        (ℓ.binding? (Spelling.normalize name) (classHash name)) d :=
      attempt.usable hp (Load.reads_binding hℓ _ _)
    exact (hworked hnew attempt).registered (b := b.worked s w) hnew hname husable

/-- Asking for a call keeps what is in memory on disk. -/
theorem supplying {p : Platform σ L} {s : String}
    {emit : Context → Except Source.EmitError Source.Unit} {r : Except CacheError (Artifact L)}
    (step : Supplying p (Key.ofSignature s) emit b r b') (hp : p.Tidy) (hℓ : p.LoadsAs ℓ)
    (hs : V.calls s)
    (hclass : ∀ a s' w, CallAttempt p (Key.ofSignature s) emit b (.ok a) s' w →
      a.returns.kind = .object → V.classes (Spelling.normalize a.returns.typeName))
    (h : Backed V ℓ b) : Backed V ℓ b' := by
  have hworked : b.cache.loaded? (Key.hashOf s) = none → ∀ {r s' w},
      CallAttempt p (Key.ofSignature s) emit b r s' w → Backed V ℓ (b.worked s' w) := by
    intro hnew r s' w attempt
    refine h.worked hp (keepsFiles_artifact _ _) (isName_hashOf s) ?_ ?_ attempt
    · rintro hash a ha rfl
      rw [show b.cache.loaded? _ = none from hnew] at ha
      exact absurd ha nofun
    · intro q d hd heq
      exact V.apart hs (h.classes q d hd).1 heq.symm
  cases step with
  | hit => exact h.count _
  | failed hnew attempt => exact hworked hnew attempt
  | unregistered hnew attempt hkind hregistering =>
    exact registering hregistering hp hℓ (hclass _ _ _ attempt hkind)
      ((hworked hnew attempt).count _)
  | @plain a s' w hnew attempt hkind =>
    have husable : b.cache.Usable w.files (Key.hashOf s) (ℓ.artifact? (Key.hashOf s)) a :=
      attempt.usable hp (Load.reads_artifact hℓ _)
    exact ((hworked hnew attempt).count _).supplied (b := (b.worked s' w).resolved) hs husable
      fun hobject => absurd hobject hkind
  | @object a s' w d b₁ hnew attempt hkind hregistering =>
    have hq := hclass _ _ _ attempt hkind
    have husable : b.cache.Usable w.files (Key.hashOf s) (ℓ.artifact? (Key.hashOf s)) a :=
      attempt.usable hp (Load.reads_artifact hℓ _)
    have hfile := hregistering.get?_artifactPath hp (isName_hashOf s) (V.apart hs hq)
    have hbacked := registering hregistering hp hℓ hq ((hworked hnew attempt).count _)
    exact hbacked.supplied hs (husable.congr hregistering.dir hfile) fun _ =>
      ⟨d, hregistering.class?_of_ok⟩

/-- **One happening keeps what is in memory on disk.** -/
theorem next (h : Backed V ℓ b) {happening : Happening σ L} (within : happening.Within V ℓ b) :
    Backed V ℓ (b.next happening) := by
  cases happening with
  | lookup p key emit =>
    obtain ⟨hp, hℓ, ⟨s, hs, rfl⟩, hclass⟩ := within
    exact supplying (supplying_exec p _ emit b) hp hℓ hs hclass h
  | ensureClass p name =>
    obtain ⟨hp, hℓ, hname⟩ := within
    exact registering (registering_exec p name b) hp hℓ hname h
  | elsewhere stats world =>
    have hfiles : (world b.world).files = b.world.files := within b.world
    refine h.frame rfl rfl rfl rfl (fun _ _ _ => ?_) (fun _ _ _ => ?_) ?_ ?_ <;>
      simp only [Bench.next, hfiles, Bench.blocked]

theorem of_opened (opened : b.Opened) : Backed V ℓ b := by
  obtain ⟨p, dir, context, w, h⟩ := opened
  obtain ⟨-, -, hloaded, hclasses, -⟩ := of_exec_ofDirectory h
  refine ⟨fun hash a ha => ?_, fun q d hd => ?_, fun hash a ha => ?_, fun hmemory => ?_⟩
  · exact absurd hloaded (loaded_ne_nil ha)
  · exact absurd hclasses (classes_ne_nil hd)
  · exact absurd hloaded (loaded_ne_nil ha)
  · exact absurd hmemory (by simp [hloaded, hclasses])

/-- **What is in memory lies in the build directory,** at any time in a session. -/
theorem after (opened : b.Opened) {hs : List (Happening σ L)}
    (all : b.Throughout (Happening.Within V ℓ) hs) : Backed V ℓ (b.after hs) :=
  all.induction (P := Backed V ℓ) (fun _ _ hb within => hb.next within) (of_opened opened)

end Backed

end Cache
end Bindery
