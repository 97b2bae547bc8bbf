/-
# Which spellings name one class

A cache knows its classes by the normal forms of their names. Two spellings have one normal form if
and only if they have the same tokens (`Spelling.normalize_eq_iff`), so asking for a class under two
spellings comes down to one registration, with one entry in memory and one key, exactly if they have
the same tokens (`Cache.classes_by_tokens`):

| spellings | asking for the second after the first |
| --- | --- |
| the same tokens | is answered from memory with the same binding, and nothing else happens |
| other tokens | ends in another entry, whose key has another signature |
-/

import Bindery.Proofs.Cpp.NormalForm
import Bindery.Proofs.Cpp.Tokens
import Bindery.Proofs.Store.Runs

namespace Bindery

variable {σ L : Type}

/-- A run is followed by one more happening. -/
theorem Bench.after_concat (b : Bench σ L) (hs : List (Happening σ L)) (h : Happening σ L) :
    b.after (hs ++ [h]) = (b.after hs).next h :=
  List.foldl_append

/-- A run goes on where another ends. -/
theorem Bench.after_append (b : Bench σ L) (hs more : List (Happening σ L)) :
    b.after (hs ++ more) = (b.after hs).after more :=
  List.foldl_append

namespace Cache

/-- The entry in memory that serves a spelling of a class: its normal form and its binding. -/
def classRecord? (c : Cache L) (name : String) : Option (String × Binding L) :=
  c.classes.find? (·.1 == Spelling.normalize name)

/-- An entry stands under the normal form of the spelling that it serves. -/
theorem classRecord?_of_class? {c : Cache L} {name : String} {d : Binding L}
    (h : c.class? (Spelling.normalize name) = some d) :
    c.classRecord? name = some (Spelling.normalize name, d) := by
  obtain ⟨⟨q, d'⟩, hfind, rfl⟩ := Option.map_eq_some_iff.1 h
  have hq : q = Spelling.normalize name := by simpa using List.find?_some hfind
  rw [classRecord?, hfind, hq]

/-- Every class in memory has its own name, and the hash of its key. -/
def Named (c : Cache L) : Prop :=
  ∀ q d, c.class? q = some d → d.qualified = q ∧ d.hash = (Key.ofClass q).hash

/-- Asking for a class leaves the classes named. -/
theorem Named.registering {p : Platform σ L} {name : String} {b b' : Bench σ L}
    {r : Except CacheError (Binding L)} (step : Registering p name b r b') (h : b.cache.Named) :
    b'.cache.Named := by
  cases step with
  | known => exact h
  | failed => exact h
  | @new d s w hnew attempt =>
    obtain ⟨path, w₁, hload⟩ := attempt.exists_exec_load
    intro q d' hq
    rcases cases_of_class?_registered hq with ⟨rfl, rfl⟩ | ⟨-, hq⟩
    · exact Load.names_of_exec_binding hload
    · exact h q d' hq

/-- Asking for a call leaves the classes named. -/
theorem Named.supplying {p : Platform σ L} {key : Key}
    {emit : Context → Except Source.EmitError Source.Unit} {b b' : Bench σ L}
    {r : Except CacheError (Artifact L)} (step : Supplying p key emit b r b')
    (h : b.cache.Named) : b'.cache.Named := by
  cases step with
  | hit | failed | plain => exact h
  | unregistered _ _ _ hclass => exact registering hclass h
  | object _ _ _ hclass =>
    have hregistered := registering hclass h
    exact hregistered

/-- **The classes of a cache are named at all times.** -/
theorem named_after {b : Bench σ L} (opened : b.Opened) (hs : List (Happening σ L)) :
    (b.after hs).cache.Named := by
  refine Bench.after_induction (P := fun b => b.cache.Named) (fun b h hb => ?_) ?_ hs
  · cases h with
    | lookup p key emit => exact hb.supplying (supplying_exec p key emit b)
    | ensureClass p name => exact hb.registering (registering_exec p name b)
    | elsewhere => exact hb
  · obtain ⟨p, dir, context, w, h⟩ := opened
    obtain ⟨-, -, -, hclasses, -⟩ := of_exec_ofDirectory h
    intro q d hq
    rw [class?, hclasses] at hq
    cases hq

/-- One key is the key of one class. -/
theorem ofClass_eq_iff {q r : String} : Key.ofClass q = Key.ofClass r ↔ q = r := by
  refine ⟨fun h => ?_, fun h => h ▸ rfl⟩
  have hsignature : "class " ++ q = "class " ++ r := congrArg Key.signature h
  exact (String.append_right_inj "class ").1 hsignature

/-- Spellings with one normal form are one request, also where it fails. -/
theorem ensureClass_congr (p : Platform σ L) {s t : String}
    (h : Spelling.normalize s = Spelling.normalize t) : ensureClass p s = ensureClass p t := by
  rw [ensureClass, ensureClass, h]

/-- **Spellings name one class if and only if they have the same tokens.** -/
theorem classes_by_tokens (σ L : Type) :
    (∀ s t : String, Spelling.normalize s = Spelling.normalize t ↔
      Spelling.tokens s = Spelling.tokens t) ∧
    (∀ s : String, Spelling.normalize (Spelling.normalize s) = Spelling.normalize s) ∧
    (∀ (p : Platform σ L) (s t : String), Spelling.tokens s = Spelling.tokens t →
      ensureClass p s = ensureClass p t) ∧
    ∀ b : Bench σ L, b.Opened → ∀ hs p s d b₁, exec (ensureClass p s) (b.after hs) = (.ok d, b₁) →
      ∀ more p' t d' b₂, exec (ensureClass p' t) (b₁.after more) = (.ok d', b₂) →
        d.hash = (Key.ofClass d.qualified).hash ∧ d'.hash = (Key.ofClass d'.qualified).hash ∧
        b₂.cache.classRecord? s = some (d.qualified, d) ∧
        b₂.cache.classRecord? t = some (d'.qualified, d') ∧
        (Key.ofClass d.qualified = Key.ofClass d'.qualified ↔
          Spelling.tokens s = Spelling.tokens t) ∧
        (b₂.cache.classRecord? s = b₂.cache.classRecord? t ↔
          Spelling.tokens s = Spelling.tokens t) ∧
        (Spelling.tokens s = Spelling.tokens t → d' = d ∧ b₂ = b₁.after more) := by
  refine ⟨Spelling.normalize_eq_iff, Spelling.normalize_normalize, ?_, ?_⟩
  · exact fun p s t h => ensureClass_congr p ((Spelling.normalize_eq_iff s t).2 h)
  intro b opened hs p s d b₁ h₁ more p' t d' b₂ h₂
  have hs₁ := (registering_of_exec h₁).class?_of_ok
  have hs₂ := (registering_of_exec h₂).keeps.classes _ _ ((keeps_after b₁ more).classes _ _ hs₁)
  have ht₂ := (registering_of_exec h₂).class?_of_ok
  -- The second answer is one more happening of the run.
  have hnamed : b₂.cache.Named := by
    have hrun := named_after opened (hs ++ [.ensureClass p s] ++ more ++ [.ensureClass p' t])
    have hb₂ : b.after (hs ++ [.ensureClass p s] ++ more ++ [.ensureClass p' t]) = b₂ := by
      have hb₁ : (b.after hs).next (.ensureClass p s) = b₁ := congrArg Prod.snd h₁
      have hlast : (b₁.after more).next (.ensureClass p' t) = b₂ := congrArg Prod.snd h₂
      rw [Bench.after_concat, Bench.after_append, Bench.after_concat, hb₁, hlast]
    rwa [hb₂] at hrun
  obtain ⟨hd, hhash⟩ := hnamed _ _ hs₂
  obtain ⟨hd', hhash'⟩ := hnamed _ _ ht₂
  have hiff : d.qualified = d'.qualified ↔ Spelling.tokens s = Spelling.tokens t := by
    rw [hd, hd', Spelling.normalize_eq_iff]
  refine ⟨by rw [hhash, hd], by rw [hhash', hd'], ?_, ?_, ofClass_eq_iff.trans hiff, ?_, ?_⟩
  · rw [classRecord?_of_class? hs₂, hd]
  · rw [classRecord?_of_class? ht₂, hd']
  · rw [classRecord?_of_class? hs₂, classRecord?_of_class? ht₂]
    constructor
    · intro heq
      exact (Spelling.normalize_eq_iff s t).1 (Prod.mk.inj (Option.some.inj heq)).1
    · intro htokens
      have hname := (Spelling.normalize_eq_iff s t).2 htokens
      rw [← hname, hs₂] at ht₂
      rw [hname, Option.some.inj ht₂]
  · intro htokens
    have hname := (Spelling.normalize_eq_iff s t).2 htokens
    have hmemory := exec_ensureClass_of_class? (p := p')
      (hname ▸ (keeps_after b₁ more).classes _ _ hs₁)
    obtain ⟨hresult, hbench⟩ := Prod.mk.inj (h₂.symm.trans hmemory)
    exact ⟨Except.ok.inj hresult, hbench⟩

/-- A compiler that knows one class. -/
def onlyClass : Script :=
  ⟨[Script.entry { signature := "class P<int>", spelling := some (Text.encode "P<int>") }], [],
    none⟩

/-- The hypotheses of `classes_by_tokens` are satisfiable: a class is asked for with blanks, and
then without them. -/
theorem classes_by_tokens_blanks :
    (fresh onlyClass).Opened ∧ ∃ d b₁,
      exec (ensureClass (Script.platform onlyClass) "P< int >") (fresh onlyClass) = (.ok d, b₁) ∧
      exec (ensureClass (Script.platform onlyClass) "P<int>") b₁ = (.ok d, b₁) ∧
      b₁.cache.classRecord? "P< int >" = b₁.cache.classRecord? "P<int>" := by
  have opened : (fresh onlyClass).Opened :=
    ⟨Script.platform onlyClass, "/build", {}, ⟨{}, {}, 0⟩, rfl⟩
  obtain ⟨-, -, hcongr, hrun⟩ := classes_by_tokens Script.Stage String
  have htokens : Spelling.tokens "P< int >" = Spelling.tokens "P<int>" := by
    decide +kernel
  rcases h₁ : exec (ensureClass (Script.platform onlyClass) "P< int >") (fresh onlyClass)
    with ⟨_ | d, b₁⟩
  · have hok : (exec (ensureClass (Script.platform onlyClass) "P< int >")
        (fresh onlyClass)).1.isOk = true := by
      decide +kernel
    rw [h₁] at hok
    exact absurd hok nofun
  have hmemory := exec_ensureClass_of_class? (p := Script.platform onlyClass)
    (registering_of_exec h₁).class?_of_ok
  have h₂ : exec (ensureClass (Script.platform onlyClass) "P<int>") b₁ = (.ok d, b₁) := by
    rw [← hcongr _ _ _ htokens, hmemory]
  obtain ⟨-, -, -, -, -, hentry, -⟩ := hrun _ opened [] _ _ _ _ h₁ [] _ _ _ _ h₂
  exact ⟨opened, d, b₁, rfl, h₂, hentry.2 htokens⟩

end Cache
end Bindery
