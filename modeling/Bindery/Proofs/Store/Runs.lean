/-
# Runs of a cache

A cache is opened over a build directory and then used for as long as its session lasts. In between
its calls anything can happen around it (`Happening`): code that was called may run and files may
come and go, and a session counts its own calls in the statistics of its cache. The platform need
not be the same from one call to the next.

What is in memory stays there. A call adds at most one library and one class, under a hash and a
name that were not taken (`Cache.Keeps`).
-/

import Bindery.Native.Script
import Bindery.Proofs.Store.Steps

namespace Bindery

variable {σ L : Type}

/-- One thing that happens to a cache or around it. -/
inductive Happening (σ L : Type) where
  | lookup (p : Platform σ L) (key : Key) (emit : Context → Except Source.EmitError Source.Unit)
  | ensureClass (p : Platform σ L) (name : String)
  /-- The session counts something, and the world goes on. -/
  | elsewhere (stats : Stats → Stats) (world : World σ L → World σ L)

namespace Bench

/-- The bench after one happening. -/
def next (b : Bench σ L) : Happening σ L → Bench σ L
  | .lookup p key emit => (exec (Cache.lookup p key emit) b).2
  | .ensureClass p name => (exec (Cache.ensureClass p name) b).2
  | .elsewhere stats world =>
    ⟨{ b.cache with stats := stats b.cache.stats }, world b.world⟩

/-- The bench after happenings, first to last. -/
def after (b : Bench σ L) (hs : List (Happening σ L)) : Bench σ L := hs.foldl next b

/-- The cache was just opened over a build directory of the world. -/
def Opened (b : Bench σ L) : Prop :=
  ∃ p dir context w, exec (Cache.ofDirectory p dir context) w = (.ok b.cache, b.world)

/-- What one happening preserves, a run preserves. -/
theorem after_induction {P : Bench σ L → Prop} (step : ∀ b h, P b → P (b.next h))
    {b : Bench σ L} (start : P b) (hs : List (Happening σ L)) : P (b.after hs) := by
  induction hs generalizing b with
  | nil => exact start
  | cons h hs ih => exact ih (step b h start)

end Bench

namespace Cache

/-- A cache that was just opened has nothing in memory. -/
theorem of_exec_ofDirectory {p : Platform σ L} {dir : String} {context : Context} {c : Cache L}
    {w w' : World σ L} (h : exec (ofDirectory p dir context) w = (.ok c, w')) :
    c.dir = dir ∧ c.context = context ∧ c.loaded = [] ∧ c.classes = [] ∧ c.stats = {} := by
  rw [ofDirectory, exec_bind_ok (exec_get w)] at h
  split at h
  · exact absurd h.symm ok_ne_error
  · rename_i files _
    rw [exec_bind_ok (exec_set w { w with files }), exec_bind_ok (exec_lift _ _)] at h
    split at h
    · exact absurd h.symm ok_ne_error
    · rw [exec_bind_ok (exec_get _)] at h
      obtain rfl := Except.ok.inj (congrArg Prod.fst h)
      exact ⟨rfl, rfl, rfl, rfl, rfl⟩

/-- A cache that was opened in a world without files. -/
def fresh (script : Script) : Bench Script.Stage String :=
  ⟨{ dir := "/build", context := {} },
    (exec (ofDirectory (Script.platform script) "/build" {}) ⟨{}, {}, 0⟩).2⟩

/-- What is in the memory of one cache is in that of another. -/
structure Keeps (c d : Cache L) : Prop where
  loaded : ∀ hash a, c.loaded? hash = some a → d.loaded? hash = some a
  classes : ∀ qualified b, c.class? qualified = some b → d.class? qualified = some b

theorem Keeps.refl (c : Cache L) : c.Keeps c := ⟨fun _ _ h => h, fun _ _ h => h⟩

theorem Keeps.trans {c d e : Cache L} (h : c.Keeps d) (h' : d.Keeps e) : c.Keeps e :=
  ⟨fun hash a ha => h'.loaded hash a (h.loaded hash a ha),
    fun qualified b hb => h'.classes qualified b (h.classes qualified b hb)⟩

/-- Counting takes nothing out of memory. -/
theorem keeps_stats (c : Cache L) (s : Stats) : c.Keeps { c with stats := s } :=
  ⟨fun _ _ h => h, fun _ _ h => h⟩

theorem keeps_registered {b : Bench σ L} {qualified : String} (d : Binding L)
    (h : b.cache.class? qualified = none) : b.cache.Keeps (b.registered qualified d).cache := by
  refine ⟨fun _ _ h => h, fun other c hc => ?_⟩
  refine (class?_cons b.cache qualified other d).trans ?_
  rw [if_neg, hc]
  rintro rfl
  rw [h] at hc
  exact absurd hc nofun

theorem keeps_supplied {b : Bench σ L} {key : Key} (a : Artifact L)
    (h : b.cache.loaded? key.hash = none) : b.cache.Keeps (b.supplied key a).cache := by
  refine ⟨fun other c hc => ?_, fun _ _ h => h⟩
  refine (loaded?_cons b.cache key.hash other a).trans ?_
  rw [if_neg, hc]
  rintro rfl
  rw [h] at hc
  exact absurd hc nofun

theorem Registering.keeps {p : Platform σ L} {name : String} {b b' : Bench σ L}
    {r : Except CacheError (Binding L)} (h : Registering p name b r b') :
    b.cache.Keeps b'.cache := by
  cases h with
  | known => exact .refl _
  | failed => exact keeps_stats _ _
  | @new c s w h _ => exact (keeps_stats _ s).trans (keeps_registered (b := b.worked s w) c h)

/-- Asking for a class leaves the calls alone. -/
theorem Registering.loaded {p : Platform σ L} {name : String} {b b' : Bench σ L}
    {r : Except CacheError (Binding L)} (h : Registering p name b r b') :
    b'.cache.loaded = b.cache.loaded := by
  cases h <;> rfl

theorem Registering.loaded?_eq {p : Platform σ L} {name : String} {b b' : Bench σ L}
    {r : Except CacheError (Binding L)} (h : Registering p name b r b') (hash : String) :
    b'.cache.loaded? hash = b.cache.loaded? hash := by
  rw [loaded?, loaded?, h.loaded]

theorem Supplying.keeps {p : Platform σ L} {key : Key}
    {emit : Context → Except Source.EmitError Source.Unit} {b b' : Bench σ L}
    {r : Except CacheError (Artifact L)} (h : Supplying p key emit b r b') :
    b.cache.Keeps b'.cache := by
  cases h with
  | hit => exact keeps_stats _ _
  | failed => exact keeps_stats _ _
  | unregistered _ _ _ hclass => exact (keeps_stats _ _).trans hclass.keeps
  | @plain a s w h _ _ =>
    exact (keeps_stats _ _).trans (keeps_supplied (b := (b.worked s w).resolved) a h)
  | @object a s w c b₁ h _ _ hclass =>
    have hloaded : b₁.cache.loaded? key.hash = none := (hclass.loaded?_eq key.hash).trans h
    have hkeeps : b.cache.Keeps b₁.cache := (keeps_stats _ _).trans hclass.keeps
    exact hkeeps.trans (keeps_supplied a hloaded)

/-- A class that was answered is known. -/
theorem Registering.class?_of_ok {p : Platform σ L} {name : String} {b b' : Bench σ L}
    {d : Binding L} (h : Registering p name b (.ok d) b') :
    b'.cache.class? (Spelling.normalize name) = some d := by
  cases h with
  | known h => exact h
  | @new _ s w _ _ =>
    exact (class?_cons (b.worked s w).cache _ _ d).trans (if_pos rfl)

/-- A call that was answered is loaded. -/
theorem Supplying.loaded?_of_ok {p : Platform σ L} {key : Key}
    {emit : Context → Except Source.EmitError Source.Unit} {b b' : Bench σ L} {a : Artifact L}
    (h : Supplying p key emit b (.ok a) b') : b'.cache.loaded? key.hash = some a := by
  cases h with
  | hit h => exact h
  | @plain _ s w _ _ _ =>
    exact (loaded?_cons (b.worked s w).cache _ _ a).trans (if_pos rfl)
  | @object _ _ _ _ b₁ _ _ _ _ =>
    exact (loaded?_cons b₁.cache _ _ a).trans (if_pos rfl)

/-- **One happening takes nothing out of memory.** -/
theorem keeps_next (b : Bench σ L) (h : Happening σ L) : b.cache.Keeps (b.next h).cache := by
  cases h with
  | lookup p key emit => exact (supplying_exec p key emit b).keeps
  | ensureClass p name => exact (registering_exec p name b).keeps
  | elsewhere => exact keeps_stats _ _

theorem keeps_after (b : Bench σ L) (hs : List (Happening σ L)) :
    b.cache.Keeps (b.after hs).cache :=
  Bench.after_induction (P := fun b' => b.cache.Keeps b'.cache)
    (fun b' h hb => hb.trans (keeps_next b' h)) (.refl _) hs

end Cache
end Bindery
