/-
# What a cache does to its build directory

All that a cache writes are files of its build directory itself: sources, libraries, the index and
what these are staged as. So nothing beyond is changed, neither by an attempt at a library
(`Cache.Attempt.sameBeyond`) nor when the index is saved (`Cache.sameBeyond_recorded`) or a cache is
opened (`Cache.sameBeyond_of_exec_ofDirectory`), and whether the index can be saved never changes.

| file | ends with |
| --- | --- |
| library of a stem | `.so` |
| source of a stem, staged or not | `.cpp.tmp`, `.cpp` |
| index, staged or not | `.rkyv.tmp`, `.rkyv` |
| what opening writes | `.hpp`, `Makefile` |

The library of one stem is none of the files of another (`Cache.artifactPath_notMem_stemFiles`),
nor is it the index.
-/

import Bindery.Build.Compilation
import Bindery.Proofs.Host.Directory
import Bindery.Proofs.Store.Loading

namespace Bindery

variable {σ L α : Type}

/-! ### Names of files -/

open Bindery.Path (IsName)

theorem hexDigit_mem (n : Nat) : Text.hexDigit n ∈ "0123456789abcdef".toList := by
  unfold Text.hexDigit
  rw [List.getD_eq_getElem?_getD]
  cases hn : (['0', '1', '2', '3', '4', '5', '6', '7', '8', '9', 'a', 'b', 'c', 'd', 'e', 'f'] :
    List Char)[n]? with
  | none => decide
  | some c => exact List.mem_of_getElem? hn

/-- A hash is made of digits and a low line. -/
theorem mem_of_mem_hashOf {c : Char} {signature : String}
    (h : c ∈ (Key.hashOf signature).toList) : c ∈ "_0123456789abcdef".toList := by
  have hlist : (Key.hashOf signature).toList = 'f' :: '_' ::
      ((Blake3.digest signature.toUTF8.toList).take Key.width).flatMap fun b =>
        [Text.hexDigit (b.toNat / 16), Text.hexDigit (b.toNat % 16)] := by
    simp [Key.hashOf, Text.hexBytes, String.toList_append]
  have hdigit : ∀ n, Text.hexDigit n ∈ "_0123456789abcdef".toList := fun n =>
    List.mem_cons_of_mem '_' (hexDigit_mem n)
  rw [hlist, List.mem_cons, List.mem_cons, List.mem_flatMap] at h
  rcases h with rfl | rfl | ⟨b, -, h⟩
  · decide
  · decide
  · rcases List.mem_cons.1 h with rfl | h
    · exact hdigit _
    · rw [List.mem_singleton.1 h]
      exact hdigit _

/-- A hash is the name of a file. -/
theorem isName_hashOf (signature : String) : IsName (Key.hashOf signature) := by
  have hstart : 'f' ∈ (Key.hashOf signature).toList := by simp [Key.hashOf]
  exact ⟨List.ne_nil_of_mem hstart, fun h => absurd (mem_of_mem_hashOf h) (by decide)⟩

theorem isName_artifactFile {stem : String} (h : IsName stem) :
    IsName (Source.artifactFile stem) := h.append (by decide)

theorem isName_sourceFile {stem : String} (h : IsName stem) : IsName (Source.sourceFile stem) :=
  h.append (by decide)

theorem isName_indexFile : IsName Cache.indexFile := ⟨by decide, by decide⟩

theorem isName_preludeFile : IsName Source.preludeFile := ⟨by decide, by decide⟩

theorem isName_rulesFile : IsName Toolchain.rulesFile := ⟨by decide, by decide⟩

/-- Making a build directory ready writes nothing but the build rules, and makes no directory. -/
def Platform.PreparesRules (p : Platform σ L) : Prop :=
  ∀ dir flags w, (∀ path, path ≠ Path.join dir Toolchain.rulesFile →
      (p.prepare dir flags w).2.files.get? path = w.files.get? path) ∧
    (p.prepare dir flags w).2.files.bare = w.files.bare

/-- A toolchain writes nothing but the build rules. -/
theorem preparesRules_toolchain (tools : Toolchain) (driver : Driver)
    (run : Command → StateM (World σ L) Outcome) (p : Platform σ L) :
    (tools.platform driver run p).PreparesRules := by
  intro dir flags w
  show (∀ path, path ≠ Path.join dir Toolchain.rulesFile →
      (tools.prepare driver dir flags w).2.files.get? path = w.files.get? path) ∧
    (tools.prepare driver dir flags w).2.files.bare = w.files.bare
  cases driver with
  | direct => exact ⟨fun _ _ => rfl, rfl⟩
  | make =>
    simp only [Toolchain.prepare]
    cases hwrite : w.files.write (Path.join dir Toolchain.rulesFile)
      (Text.encode (makefile tools flags)) with
    | error => exact ⟨fun _ _ => rfl, rfl⟩
    | ok files =>
      unfold Files.write at hwrite
      split at hwrite
      · exact absurd hwrite nofun
      · obtain rfl := Except.ok.inj hwrite
        exact ⟨fun path hpath => (Files.get?_put ..).trans (if_neg hpath.symm), rfl⟩

theorem preparesRules_script (script : Script) : (Script.platform script).PreparesRules := by
  intro dir flags w
  show (∀ path, path ≠ Path.join dir Toolchain.rulesFile →
      (script.prepare dir flags w).2.files.get? path = w.files.get? path) ∧
    (script.prepare dir flags w).2.files.bare = w.files.bare
  simp only [Script.prepare, bind, StateT.bind, pure]
  cases script.unprepared <;> exact ⟨fun _ _ => rfl, rfl⟩

theorem preparesRules_transcriber : transcriber.PreparesRules :=
  fun _ _ _ => ⟨fun _ _ => rfl, rfl⟩

namespace Cache

theorem artifactPath_inj {c : Cache L} {stem other : String} (h : IsName stem) (h' : IsName other)
    (heq : c.artifactPath stem = c.artifactPath other) : stem = other := by
  have hname := Path.join_inj (isName_artifactFile h) (isName_artifactFile h') heq
  rw [Source.artifactFile, Source.artifactFile, ← String.toList_inj, String.toList_append,
    String.toList_append] at hname
  exact String.toList_inj.1 (List.append_cancel_right hname)

theorem getLast?_artifactPath (c : Cache L) (stem : String) :
    (c.artifactPath stem).toList.getLast? = some 'o' :=
  getLast?_join (by simp [Source.artifactFile, String.toList_append])

/-- A library is neither the index nor what that is staged as. -/
theorem artifactPath_ne_index (c : Cache L) (stem : String) :
    c.artifactPath stem ≠ c.indexPath ∧ c.artifactPath stem ≠ Files.staging c.indexPath := by
  have hartifact := getLast?_artifactPath c stem
  have hindex : c.indexPath.toList.getLast? = some 'v' := getLast?_join (by decide)
  have hstaging : (Files.staging c.indexPath).toList.getLast? = some 'p' := by
    simp [Files.staging, String.toList_append]
  constructor
  · intro heq
    rw [heq, hindex] at hartifact
    exact absurd hartifact (by decide)
  · intro heq
    rw [heq, hstaging] at hartifact
    exact absurd hartifact (by decide)

/-- A library is neither a source nor what that is staged as. -/
theorem artifactPath_ne_source (c : Cache L) (stem other : String) :
    c.artifactPath stem ≠ c.sourcePath other ∧
      c.artifactPath stem ≠ Files.staging (c.sourcePath other) := by
  have hartifact := getLast?_artifactPath c stem
  have hsource : (c.sourcePath other).toList.getLast? = some 'p' :=
    getLast?_join (by simp [Source.sourceFile, String.toList_append])
  have hstaging : (Files.staging (c.sourcePath other)).toList.getLast? = some 'p' := by
    simp [Files.staging, String.toList_append]
  constructor
  · intro heq
    rw [heq, hsource] at hartifact
    exact absurd hartifact (by decide)
  · intro heq
    rw [heq, hstaging] at hartifact
    exact absurd hartifact (by decide)

/-- The library of one stem is none of the files of another. -/
theorem artifactPath_notMem_stemFiles {c : Cache L} {stem other : String} (h : IsName stem)
    (h' : IsName other) (hne : stem ≠ other) : c.artifactPath stem ∉ c.stemFiles other := by
  obtain ⟨hsource, hstaging⟩ := artifactPath_ne_source c stem other
  simp only [stemFiles, List.mem_cons, List.not_mem_nil, or_false, not_or]
  exact ⟨hsource, hstaging, fun heq => hne (artifactPath_inj h h' heq)⟩

theorem isName_classHash (name : String) : IsName (classHash name) := isName_hashOf _

/-! ### Steps -/

/-- An attempt changes nothing but files of the build directory. -/
theorem Attempt.sameBeyond {p : Platform σ L} {c : Cache L} {stem : String}
    {load : String → Load σ L α} {source : Except Source.EmitError Source.Unit} {w w' : World σ L}
    {r : Except CacheError α} {s : Stats} (hp : p.Tidy) (hload : Load.KeepsFiles load)
    (hstem : IsName stem) (h : Attempt p c stem load source w r s w') :
    Files.SameBeyond c.dir w.files w'.files := by
  have hwritten : ∀ {w₁ : World σ L} unit, Unusable (c.artifactPath stem) load w w₁ →
      Files.SameBeyond c.dir w.files (c.written stem unit w₁).files := by
    intro w₁ unit h
    rw [← files_unusable hload h]
    exact .save (isName_sourceFile hstem) _
  have hcompiled : ∀ {w₁ : World σ L} {unit compiled w₂},
      Unusable (c.artifactPath stem) load w w₁ →
      p.compile (c.job stem) (c.written stem unit w₁) = (compiled, w₂) →
      Files.SameBeyond c.dir w.files w₂.files := by
    intro w₁ unit compiled w₂ h hcompile
    refine (hwritten unit h).trans ⟨fun path hpath => ?_, ?_⟩
    · have hoffpath : path ≠ (c.job stem).output := by
        rintro rfl
        exact hpath (Path.holds_join (isName_artifactFile hstem))
      rw [← hp.writes (c.job stem) (c.written stem unit w₁) path hoffpath, hcompile]
    · rw [← hp.bare (c.job stem) (c.written stem unit w₁), hcompile]
  cases h with
  | disk _ h =>
    rw [hload.files_eq h]
    exact .refl _ _
  | unemitted h =>
    rw [files_unusable hload h]
    exact .refl _ _
  | unwritten h => exact hwritten _ h
  | uncompiled h _ _ hcompile => exact hcompiled h hcompile
  | compiled h _ _ hcompile h' =>
    rw [hload.files_eq h']
    exact hcompiled h hcompile

/-- Recording an entry changes nothing but the index. -/
theorem sameBeyond_recorded (b : Bench σ L) (e : IndexEntry) :
    Files.SameBeyond b.cache.dir b.world.files (b.recorded e).world.files :=
  .save isName_indexFile _

theorem Registering.dir {p : Platform σ L} {name : String} {b b' : Bench σ L}
    {r : Except CacheError (Binding L)} (h : Registering p name b r b') :
    b'.cache.dir = b.cache.dir := by
  cases h <;> rfl

theorem Registering.context {p : Platform σ L} {name : String} {b b' : Bench σ L}
    {r : Except CacheError (Binding L)} (h : Registering p name b r b') :
    b'.cache.context = b.cache.context := by
  cases h <;> rfl

theorem Supplying.dir {p : Platform σ L} {key : Key}
    {emit : Context → Except Source.EmitError Source.Unit} {b b' : Bench σ L}
    {r : Except CacheError (Artifact L)} (h : Supplying p key emit b r b') :
    b'.cache.dir = b.cache.dir := by
  cases h with
  | hit | failed | plain => rfl
  | unregistered _ _ _ hclass => exact hclass.dir
  | object _ _ _ hclass => exact hclass.dir

theorem Supplying.context {p : Platform σ L} {key : Key}
    {emit : Context → Except Source.EmitError Source.Unit} {b b' : Bench σ L}
    {r : Except CacheError (Artifact L)} (h : Supplying p key emit b r b') :
    b'.cache.context = b.cache.context := by
  cases h with
  | hit | failed | plain => rfl
  | unregistered _ _ _ hclass => exact hclass.context
  | object _ _ _ hclass => exact hclass.context

/-- A cache stays at its build directory, and in its context. -/
theorem dir_after (b : Bench σ L) (hs : List (Happening σ L)) :
    (b.after hs).cache.dir = b.cache.dir ∧ (b.after hs).cache.context = b.cache.context := by
  refine Bench.after_induction (P := fun b' => b'.cache.dir = b.cache.dir ∧
    b'.cache.context = b.cache.context) ?_ ⟨rfl, rfl⟩ hs
  intro b' h hb
  cases h with
  | lookup p key emit =>
    have hstep := supplying_exec p key emit b'
    exact ⟨hstep.dir.trans hb.1, hstep.context.trans hb.2⟩
  | ensureClass p name =>
    have hstep := registering_exec p name b'
    exact ⟨hstep.dir.trans hb.1, hstep.context.trans hb.2⟩
  | elsewhere => exact hb

/-! ### Opening -/

/-- Opening a build directory writes nothing but the prelude and the build rules, whatever comes of
it. -/
theorem opening_of_exec {p : Platform σ L} {dir : String} {context : Context}
    {r : Except CacheError (Cache L)} {w w' : World σ L} (hp : p.PreparesRules)
    (h : exec (ofDirectory p dir context) w = (r, w')) :
    (∀ path, path ≠ Path.join dir Source.preludeFile → path ≠ Path.join dir Toolchain.rulesFile →
      w'.files.get? path = w.files.get? path) ∧ w'.files.bare = w.files.bare := by
  obtain rfl := congrArg Prod.snd h
  rw [ofDirectory, exec_bind_ok (exec_get w)]
  split
  · exact ⟨fun _ _ _ => rfl, rfl⟩
  · rename_i files hwrite
    unfold Files.write at hwrite
    split at hwrite
    · cases hwrite
    obtain rfl := Except.ok.inj hwrite
    rw [exec_bind_ok (exec_set w _), exec_bind_ok (exec_lift _ _)]
    obtain ⟨hget, hbare⟩ := hp dir context.flags
      { w with files := w.files.put (Path.join dir Source.preludeFile)
                 (.bytes (Text.encode Source.prelude)) }
    split <;> refine ⟨fun path hprelude hrules => ?_, hbare⟩ <;> refine (hget path hrules).trans ?_
    all_goals exact (Files.get?_put ..).trans (if_neg hprelude.symm)

/-- A cache that opens reads its index. -/
theorem index_of_exec_ofDirectory {p : Platform σ L} {dir : String} {context : Context}
    {c : Cache L} {w w' : World σ L} (h : exec (ofDirectory p dir context) w = (.ok c, w')) :
    c.index = ((w'.files.read? c.indexPath).bind Archive.read?).getD [] := by
  rw [ofDirectory, exec_bind_ok (exec_get w)] at h
  split at h
  · exact absurd h.symm ok_ne_error
  · rw [exec_bind_ok (exec_set w _), exec_bind_ok (exec_lift _ _)] at h
    split at h
    · exact absurd h.symm ok_ne_error
    · rw [exec_bind_ok (exec_get _)] at h
      obtain rfl := Except.ok.inj (congrArg Prod.fst h)
      obtain rfl := congrArg Prod.snd h
      rfl

/-- Opening a build directory changes nothing but files of it. -/
theorem sameBeyond_of_exec_ofDirectory {p : Platform σ L} {dir : String} {context : Context}
    {r : Except CacheError (Cache L)} {w w' : World σ L} (hp : p.PreparesRules)
    (h : exec (ofDirectory p dir context) w = (r, w')) :
    Files.SameBeyond dir w.files w'.files := by
  obtain ⟨hget, hbare⟩ := opening_of_exec hp h
  refine ⟨fun path hpath => hget path ?_ ?_, hbare⟩
  · rintro rfl
    exact hpath (Path.holds_join isName_preludeFile)
  · rintro rfl
    exact hpath (Path.holds_join isName_rulesFile)

/-- Opening a build directory touches neither its libraries nor its index. -/
theorem get?_of_exec_ofDirectory {p : Platform σ L} {dir : String} {context : Context}
    {r : Except CacheError (Cache L)} {w w' : World σ L} (hp : p.PreparesRules)
    (h : exec (ofDirectory p dir context) w = (r, w')) :
    (∀ stem, w'.files.get? (Path.join dir (Source.artifactFile stem)) =
        w.files.get? (Path.join dir (Source.artifactFile stem))) ∧
      w'.files.get? (Path.join dir indexFile) = w.files.get? (Path.join dir indexFile) := by
  obtain ⟨hget, -⟩ := opening_of_exec hp h
  have hprelude : (Path.join dir Source.preludeFile).toList.getLast? = some 'p' :=
    getLast?_join (by decide)
  have hrules : (Path.join dir Toolchain.rulesFile).toList.getLast? = some 'e' :=
    getLast?_join (by decide)
  have hne : ∀ path, path.toList.getLast? = some 'o' ∨ path.toList.getLast? = some 'v' →
      w'.files.get? path = w.files.get? path := by
    intro path hpath
    refine hget path ?_ ?_
    · rintro rfl
      rw [hprelude] at hpath
      exact absurd hpath (by decide)
    · rintro rfl
      rw [hrules] at hpath
      exact absurd hpath (by decide)
  refine ⟨fun stem => hne _ (.inl (getLast?_join ?_)), hne _ (.inr (getLast?_join (by decide)))⟩
  simp [Source.artifactFile, String.toList_append]

end Cache
end Bindery
