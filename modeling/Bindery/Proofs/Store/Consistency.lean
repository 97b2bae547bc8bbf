/-
# Memory, classes and index agree

Two memories and an index are kept by calls that use each other and can fail halfway. Whatever
happens to a cache over a directory whose index has each hash once, they agree
(`Cache.Consistent`):

| what | is |
| --- | --- |
| the name of a class | normal, and that of its binding |
| the hash of a call | that of its artifact |
| the class of an object that a call returns | known |
| the index | free of repetitions, with an entry for each call and each class |

What was answered once is answered from memory from then on, and this only counts a hit.
-/

import Bindery.Proofs.Cpp.NormalForm
import Bindery.Proofs.Store.Index
import Bindery.Proofs.Store.Runs

namespace Bindery
namespace Cache

variable {σ L : Type}

/-- The memories of a cache and its index agree. -/
structure Consistent (c : Cache L) : Prop where
  normal : ∀ q d, c.class? q = some d → Spelling.normalize q = q
  named : ∀ q d, c.class? q = some d → d.qualified = q ∧ d.hash = (Key.ofClass q).hash
  owned : ∀ hash a, c.loaded? hash = some a → a.hash = hash
  returned : ∀ hash a, c.loaded? hash = some a → a.returns.kind = .object →
    ∃ d, c.class? (Spelling.normalize a.returns.typeName) = some d
  distinct : (Index.hashes c.index).Nodup
  indexedCalls : ∀ hash a, c.loaded? hash = some a → hash ∈ Index.hashes c.index
  indexedClasses : ∀ q d, c.class? q = some d → (Key.ofClass q).hash ∈ Index.hashes c.index

namespace Consistent

/-- Statistics do not matter. -/
theorem stats {c : Cache L} (h : c.Consistent) (s : Stats) : ({ c with stats := s }).Consistent :=
  ⟨h.normal, h.named, h.owned, h.returned, h.distinct, h.indexedCalls, h.indexedClasses⟩

/-- A cache that was just opened is consistent if its index has each hash once. -/
theorem of_opened {b : Bench σ L} (opened : b.Opened)
    (distinct : (Index.hashes b.cache.index).Nodup) : b.cache.Consistent := by
  obtain ⟨p, dir, context, w, h⟩ := opened
  obtain ⟨-, -, hloaded, hclasses, -⟩ := of_exec_ofDirectory h
  have hcalls : ∀ hash a, b.cache.loaded? hash ≠ some a := by
    simp [loaded?, hloaded]
  have hclass : ∀ q d, b.cache.class? q ≠ some d := by
    simp [class?, hclasses]
  exact ⟨fun q d h => absurd h (hclass q d), fun q d h => absurd h (hclass q d),
    fun hash a h => absurd h (hcalls hash a), fun hash a h => absurd h (hcalls hash a), distinct,
    fun hash a h => absurd h (hcalls hash a), fun q d h => absurd h (hclass q d)⟩

/-- A new class keeps a cache consistent. -/
theorem registered {b : Bench σ L} (h : b.cache.Consistent) {name : String} {d : Binding L}
    (hnew : b.cache.class? (Spelling.normalize name) = none)
    (hname : d.qualified = Spelling.normalize name) (hhash : d.hash = classHash name) :
    (b.registered (Spelling.normalize name) d).cache.Consistent := by
  have hindex : ∀ hash, hash ∈ Index.hashes b.cache.index ∨ hash = classHash name →
      hash ∈ Index.hashes (b.registered (Spelling.normalize name) d).cache.index := by
    intro hash hhash
    exact Index.mem_hashes_sort.2 (Index.mem_hashes_upsert.2 hhash)
  have hclass : ∀ q d', (b.registered (Spelling.normalize name) d).cache.class? q = some d' →
      q = Spelling.normalize name ∧ d' = d ∨ b.cache.class? q = some d' := by
    intro q d' hq
    have hcons := (class?_cons b.cache (Spelling.normalize name) q d).symm.trans hq
    by_cases hn : Spelling.normalize name = q
    · rw [if_pos hn] at hcons
      exact .inl ⟨hn.symm, (Option.some.inj hcons).symm⟩
    · rw [if_neg hn] at hcons
      exact .inr hcons
  constructor
  · intro q d' hq
    rcases hclass q d' hq with ⟨rfl, -⟩ | hq
    · exact Spelling.normalize_normalize name
    · exact h.normal q d' hq
  · intro q d' hq
    rcases hclass q d' hq with ⟨rfl, rfl⟩ | hq
    · exact ⟨hname, hhash⟩
    · exact h.named q d' hq
  · exact h.owned
  · intro hash a ha hkind
    obtain ⟨d', hd'⟩ := h.returned hash a ha hkind
    exact ⟨d', (keeps_registered d hnew).classes _ _ hd'⟩
  · exact Index.nodup_hashes_sort (Index.nodup_hashes_upsert h.distinct _)
  · exact fun hash a ha => hindex hash (.inl (h.indexedCalls hash a ha))
  · intro q d' hq
    rcases hclass q d' hq with ⟨rfl, -⟩ | hq
    · exact hindex _ (.inr rfl)
    · exact hindex _ (.inl (h.indexedClasses q d' hq))

/-- A new call keeps a cache consistent, if the class of an object that it returns is known. -/
theorem supplied {b : Bench σ L} (h : b.cache.Consistent) {key : Key} {a : Artifact L}
    (hhash : a.hash = key.hash)
    (hreturned : a.returns.kind = .object →
      ∃ d, b.cache.class? (Spelling.normalize a.returns.typeName) = some d) :
    (b.supplied key a).cache.Consistent := by
  have hindex : ∀ hash, hash ∈ Index.hashes b.cache.index ∨ hash = key.hash →
      hash ∈ Index.hashes (b.supplied key a).cache.index := by
    intro hash hhash
    exact Index.mem_hashes_sort.2 (Index.mem_hashes_upsert.2 hhash)
  have hloaded : ∀ hash a', (b.supplied key a).cache.loaded? hash = some a' →
      hash = key.hash ∧ a' = a ∨ b.cache.loaded? hash = some a' := by
    intro hash a' ha
    have hcons := (loaded?_cons b.cache key.hash hash a).symm.trans ha
    by_cases hk : key.hash = hash
    · rw [if_pos hk] at hcons
      exact .inl ⟨hk.symm, (Option.some.inj hcons).symm⟩
    · rw [if_neg hk] at hcons
      exact .inr hcons
  constructor
  · exact h.normal
  · exact h.named
  · intro hash a' ha
    rcases hloaded hash a' ha with ⟨rfl, rfl⟩ | ha
    · exact hhash
    · exact h.owned hash a' ha
  · intro hash a' ha hkind
    rcases hloaded hash a' ha with ⟨-, rfl⟩ | ha
    · exact hreturned hkind
    · exact h.returned hash a' ha hkind
  · exact Index.nodup_hashes_sort (Index.nodup_hashes_upsert h.distinct _)
  · intro hash a' ha
    rcases hloaded hash a' ha with ⟨rfl, -⟩ | ha
    · exact hindex _ (.inr rfl)
    · exact hindex _ (.inl (h.indexedCalls hash a' ha))
  · exact fun q d hq => hindex _ (.inl (h.indexedClasses q d hq))

/-- Asking for a class keeps a cache consistent, whatever comes of it. -/
theorem registering {p : Platform σ L} {name : String} {b b' : Bench σ L}
    {r : Except CacheError (Binding L)} (step : Registering p name b r b')
    (h : b.cache.Consistent) : b'.cache.Consistent := by
  cases step with
  | known => exact h
  | failed => exact h.stats _
  | @new d s w hnew attempt =>
    obtain ⟨path, w₁, hload⟩ := attempt.exists_exec_load
    obtain ⟨hname, hhash⟩ := Load.names_of_exec_binding hload
    exact registered (b := b.worked s w) (h.stats s) hnew hname hhash

/-- Asking for a call keeps a cache consistent, whatever comes of it. -/
theorem supplying {p : Platform σ L} {key : Key}
    {emit : Context → Except Source.EmitError Source.Unit} {b b' : Bench σ L}
    {r : Except CacheError (Artifact L)} (step : Supplying p key emit b r b')
    (h : b.cache.Consistent) : b'.cache.Consistent := by
  cases step with
  | hit => exact h.stats _
  | failed => exact h.stats _
  | unregistered _ _ _ hclass => exact registering hclass (h.stats _)
  | @plain a s w _ attempt hkind =>
    obtain ⟨path, w₁, hload⟩ := attempt.exists_exec_load
    exact supplied (b := (b.worked s w).resolved) (h.stats _) (Load.hash_of_exec_artifact hload)
      fun hobject => absurd hobject hkind
  | object _ attempt _ hclass =>
    obtain ⟨path, w₁, hload⟩ := attempt.exists_exec_load
    exact (registering hclass (h.stats _)).supplied (Load.hash_of_exec_artifact hload)
      fun _ => ⟨_, hclass.class?_of_ok⟩

/-- **One happening keeps a cache consistent.** -/
theorem next {b : Bench σ L} (h : b.cache.Consistent) (happening : Happening σ L) :
    (b.next happening).cache.Consistent := by
  cases happening with
  | lookup p key emit => exact supplying (supplying_exec p key emit b) h
  | ensureClass p name => exact registering (registering_exec p name b) h
  | elsewhere => exact h.stats _

end Consistent

/-- **Memory, classes and index agree at all times,** in every run of a cache that was opened over
a directory whose index has each hash once. Nothing leaves the memory. So once a call or a class
has been answered, asking again, at any time and in any way, gives the same answer from memory: it
counts one hit for a call and leaves all else as it is. -/
theorem consistent_after {b : Bench σ L} (opened : b.Opened)
    (distinct : (Index.hashes b.cache.index).Nodup) (hs : List (Happening σ L)) :
    (b.after hs).cache.Consistent ∧
    (∀ more, (b.after hs).cache.Keeps ((b.after hs).after more).cache) ∧
    (∀ p key emit a b', exec (lookup p key emit) (b.after hs) = (.ok a, b') →
      ∀ more p' key' emit', key'.hash = key.hash →
        exec (lookup p' key' emit') (b'.after more) = (.ok a, (b'.after more).hit)) ∧
    ∀ p name d b', exec (ensureClass p name) (b.after hs) = (.ok d, b') →
      ∀ more p' name', Spelling.normalize name' = Spelling.normalize name →
        exec (ensureClass p' name') (b'.after more) = (.ok d, b'.after more) := by
  refine ⟨?_, keeps_after _, ?_, ?_⟩
  · exact Bench.after_induction (P := fun b => b.cache.Consistent) (fun _ h hb => hb.next h)
      (.of_opened opened distinct) hs
  · intro p key emit a b' h more p' key' emit' hkey
    have hloaded := (keeps_after b' more).loaded _ _ (supplying_of_exec h).loaded?_of_ok
    rw [← hkey] at hloaded
    exact exec_lookup_of_loaded? hloaded
  · intro p name d b' h more p' name' hname
    have hclass := (keeps_after b' more).classes _ _ (registering_of_exec h).class?_of_ok
    rw [← hname] at hclass
    exact exec_ensureClass_of_class? hclass

/-- A compiler that knows one function without a result, and how to build its library. -/
def oneFunction : Script := ⟨[("f_0", { signature := "f()" })], [], none⟩

/-- The hypotheses of `consistent_after` are satisfiable: a cache opened in a world without files
gets a library by compiling it, and answers with it from then on. -/
theorem consistent_after_fresh :
    (fresh oneFunction).Opened ∧ (Index.hashes (fresh oneFunction).cache.index).Nodup ∧
      ∃ a b, exec (lookup (Script.platform oneFunction) ⟨"f_0", "f()"⟩ fun _ => .ok {})
          (fresh oneFunction) = (.ok a, b) ∧
        ∀ more, (b.after more).cache.Consistent ∧
          ∀ emit, exec (lookup (Script.platform oneFunction) ⟨"f_0", "f()"⟩ emit) (b.after more) =
            (.ok a, (b.after more).hit) := by
  have opened : (fresh oneFunction).Opened :=
    ⟨Script.platform oneFunction, "/build", {}, ⟨{}, {}, 0⟩, rfl⟩
  have distinct : (Index.hashes (fresh oneFunction).cache.index).Nodup := List.nodup_nil
  obtain ⟨-, -, again, -⟩ := consistent_after opened distinct []
  refine ⟨opened, distinct, ⟨"f_0", "/build/f_0.so", ⟨.void, ""⟩, "f_0"⟩, _, rfl, fun more => ?_⟩
  constructor
  · exact (consistent_after opened distinct (.lookup (Script.platform oneFunction) ⟨"f_0", "f()"⟩
      (fun _ => .ok {}) :: more)).1
  · exact fun emit => again (Script.platform oneFunction) ⟨"f_0", "f()"⟩ (fun _ => .ok {}) _ _ rfl
      more _ _ _ rfl

end Cache
end Bindery
