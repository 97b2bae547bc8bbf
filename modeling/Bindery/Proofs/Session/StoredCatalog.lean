/-
# A catalog that was set up is opened again

How a run of setting up goes that ends well is said once (`Setup.Course`). It makes the catalog and
stores it spread over lines. What comes behind that is the enumeration table, and neither its
source nor its library lies where the catalog is. So reading what setting up left gives the catalog
that it returned (`Setup.readCatalog_of_exec_run`).

| step | what it does to the file of the catalog |
| --- | --- |
| prelude, build rules, accessor headers | may do anything |
| catalog | puts the text there |
| source of the enumeration table | nothing |
| compiling it | nothing, if the compiler spares the file |

With what `Catalog.read?_page` says about the text alone this is `stored_catalog_read_back`.
-/

import Bindery.Proofs.Catalog.Storage
import Bindery.Proofs.Outcome
import Bindery.Proofs.Store.Failure
import Bindery.Proofs.Text.Utf8
import Bindery.Session.Setup

namespace Bindery

variable {σ L α β : Type}

/-- Compiling does nothing to a file, unless the file is the library that is asked for. -/
def Platform.Spares (p : Platform σ L) (path : String) : Prop :=
  ∀ job w, path ≠ job.output → (p.compile job w).2.files.get? path = w.files.get? path

theorem Platform.WritesOnlyOutput.spares {p : Platform σ L} (h : p.WritesOnlyOutput)
    (path : String) : p.Spares path :=
  fun job w => h job w path

namespace Files

/-- What is written is there. -/
theorem read?_of_write {files written : Files L} {path : String} {content : List UInt8}
    (h : files.write path content = .ok written) : written.read? path = some content := by
  unfold write at h
  split at h
  · exact absurd h nofun
  · obtain rfl := Except.ok.inj h
    rw [read?, get?_put, if_pos rfl]

end Files

namespace Setup

/-! ### Steps that end well -/

theorem exec_onFiles_eq_ok {f : Files L → Except SetupError (Files L)} {w w' : World σ L}
    {u : Unit} (h : exec (onFiles f) w = (.ok u, w')) :
    ∃ files, f w.files = .ok files ∧ w' = { w with files } := by
  rw [onFiles, exec_bind_ok (exec_get w)] at h
  cases hf : f w.files with
  | error e =>
    rw [hf] at h
    exact absurd h.symm ok_ne_error
  | ok files =>
    rw [hf] at h
    exact ⟨files, rfl, (congrArg Prod.snd h).symm⟩

theorem exec_built_eq_ok {f : StateM (World σ L) (Except BuildError α)} {w w' : World σ L}
    {u : Unit} (h : exec (built f) w = (.ok u, w')) : w' = (f w).2 := by
  rw [built, exec_bind_ok (exec_lift f w)] at h
  cases hf : (f w).1 with
  | error e =>
    rw [hf] at h
    exact absurd h.symm ok_ne_error
  | ok a =>
    rw [hf] at h
    exact (congrArg Prod.snd h).symm

/-! ### The course of a run -/

/-- The build directory of an output directory. -/
def dirOf (out : String) : String := Path.join out buildDir

/-- How a run that ends well goes: the headers `found`, what they declare, and the files after the
prelude, after the build rules, after the accessor headers, and with the catalog. -/
structure Course (p : Platform σ L) (out : String) (paths flags : List String) (w w' : World σ L)
    (m : Catalog) (found : List String) (r : Reflection) (started : Files L) (ready : World σ L)
    (headed stored : Files L) : Prop where
  resolved : uniqueHeaders w.files paths = .ok found
  catalog : m = .ofReflection r (Headers.includes found) (Headers.includeFlags found ++ flags)
  prelude : w.files.write (Path.join (dirOf out) Source.preludeFile) (Text.encode Source.prelude) =
    .ok started
  rules : ready = (p.prepare (dirOf out) m.flags { w with files := started }).2
  reflected : reflect ready.files found = .ok r
  accessors : accessors r (dirOf out) m.includes ready.files = .ok headed
  saved : headed.write (Path.join out Catalog.file) (Text.encode m.page) = .ok stored
  enums : w' = { ready with files := stored } ∨
    ∃ u, exec (enumTable p r (dirOf out) m) { ready with files := stored } = (.ok u, w')

theorem course_of_exec_run {p : Platform σ L} {out : String} {paths flags : List String}
    {w w' : World σ L} {m : Catalog} (h : exec (run p out paths flags) w = (.ok m, w')) :
    ∃ found r started ready headed stored,
      Course p out paths flags w w' m found r started ready headed stored := by
  obtain ⟨found, w₁, h₁, h⟩ := exec_bind_eq_ok h
  obtain ⟨hresolved, rfl⟩ := Prod.mk.inj h₁
  obtain ⟨_, w₂, h₂, h⟩ := exec_bind_eq_ok h
  obtain ⟨started, hprelude, rfl⟩ := exec_onFiles_eq_ok h₂
  obtain ⟨_, w₃, h₃, h⟩ := exec_bind_eq_ok h
  have hrules := exec_built_eq_ok h₃
  obtain ⟨r, w₄, h₄, h⟩ := exec_bind_eq_ok h
  obtain ⟨hreflected, rfl⟩ := Prod.mk.inj h₄
  obtain ⟨_, w₅, h₅, h⟩ := exec_bind_eq_ok h
  obtain ⟨headed, haccessors, rfl⟩ := exec_onFiles_eq_ok h₅
  obtain ⟨_, w₆, h₆, h⟩ := exec_bind_eq_ok h
  obtain ⟨stored, hsaved, rfl⟩ := exec_onFiles_eq_ok h₆
  have hend : m = .ofReflection r (Headers.includes found) (Headers.includeFlags found ++ flags) ∧
      (w' = { w₃ with files := stored } ∨
        ∃ u, exec (enumTable p r (dirOf out) m) { w₃ with files := stored } = (.ok u, w')) := by
    split at h
    · obtain ⟨u, w₇, htable, h⟩ := exec_bind_eq_ok h
      obtain ⟨hm, rfl⟩ := Prod.mk.inj h
      obtain rfl := Except.ok.inj hm
      exact ⟨rfl, .inr ⟨u, htable⟩⟩
    · obtain ⟨hm, rfl⟩ := Prod.mk.inj h
      exact ⟨(Except.ok.inj hm).symm, .inl rfl⟩
  obtain ⟨rfl, henums⟩ := hend
  exact ⟨found, r, started, w₃, headed, stored, hresolved, rfl,
    eq_ok_of_mapError_eq_ok hprelude, hrules, hreflected, haccessors,
    eq_ok_of_mapError_eq_ok hsaved, henums⟩

/-! ### What is done behind storing the catalog -/

/-- Neither the source nor the library of the enumeration table is the catalog. -/
theorem catalogPath_ne (out dir stem : String) :
    Path.join out Catalog.file ≠ Path.join dir (Source.sourceFile stem) ∧
    Path.join out Catalog.file ≠ Files.staging (Path.join dir (Source.sourceFile stem)) ∧
    Path.join out Catalog.file ≠ Path.join dir (Source.artifactFile stem) := by
  have hcatalog : (Path.join out Catalog.file).toList.getLast? = some 'n' :=
    Cache.getLast?_join (by decide)
  have hother : ∀ path : String, ∀ c, path.toList.getLast? = some c → c ≠ 'n' →
      Path.join out Catalog.file ≠ path := by
    rintro path c hlast hne rfl
    exact hne (Option.some.inj (hlast.symm.trans hcatalog))
  refine ⟨hother _ 'p' (Cache.getLast?_join ?_) (by decide), hother _ 'p' ?_ (by decide),
    hother _ 'o' (Cache.getLast?_join ?_) (by decide)⟩
  · simp [Source.sourceFile, String.toList_append]
  · simp [Files.staging, String.toList_append]
  · simp [Source.artifactFile, String.toList_append]

/-- The enumeration table is made beside all files but its source and its library. -/
theorem get?_of_exec_enumTable {p : Platform σ L} {r : Reflection} {dir path : String}
    {m : Catalog} {w w' : World σ L} {u : Unit} (hp : p.Spares path)
    (hsource : path ≠ Path.join dir (Source.sourceFile Source.enumStem))
    (hstaging : path ≠ Files.staging (Path.join dir (Source.sourceFile Source.enumStem)))
    (hartifact : path ≠ Path.join dir (Source.artifactFile Source.enumStem))
    (h : exec (enumTable p r dir m) w = (.ok u, w')) :
    w'.files.get? path = w.files.get? path := by
  rw [enumTable] at h
  obtain ⟨_, w₁, hwritten, hbuilt⟩ := exec_bind_eq_ok h
  obtain ⟨files, hreplace, rfl⟩ := exec_onFiles_eq_ok hwritten
  have hcompile := hp ⟨dir, Path.join dir (Source.sourceFile Source.enumStem),
    Source.artifactFile Source.enumStem, m.flags⟩ { w with files } hartifact
  rw [exec_built_eq_ok hbuilt]
  refine hcompile.trans ?_
  rw [← Files.save_of_replace (eq_ok_of_mapError_eq_ok hreplace)]
  exact Files.get?_save hsource hstaging

/-- **What is set up can be opened:** the catalog that is stored is the one that is returned. -/
theorem readCatalog_of_exec_run {p : Platform σ L} {out : String} {paths flags : List String}
    {w w' : World σ L} {m : Catalog} (hp : p.Spares (Path.join out Catalog.file))
    (h : exec (run p out paths flags) w = (.ok m, w')) :
    Session.readCatalog w'.files out = .ok m := by
  -- Nothing matters but storing the catalog and what comes behind it.
  obtain ⟨found, r, started, ready, headed, stored, course⟩ := course_of_exec_run h
  have hread := Files.read?_of_write course.saved
  have hleft : w'.files.get? (Path.join out Catalog.file) =
      stored.get? (Path.join out Catalog.file) := by
    rcases course.enums with rfl | ⟨u, htable⟩
    · rfl
    · obtain ⟨hsource, hstaging, hartifact⟩ := catalogPath_ne out (dirOf out) Source.enumStem
      exact get?_of_exec_enumTable hp hsource hstaging hartifact htable
  rw [Session.readCatalog, Files.read?, hleft, ← Files.read?, hread]
  simp only [Text.strict?_encode, Option.bind_some, Catalog.read?_page]

/-- **A stored catalog is the catalog.** Every catalog is read back from both layouts of its text,
and what setting up leaves is opened with the catalog that setting up returned. -/
theorem stored_catalog_read_back (p : Platform σ L) :
    (∀ m : Catalog, Catalog.read? m.json.line = some m ∧ Catalog.read? m.page = some m) ∧
    ∀ out paths flags w m w', p.Spares (Path.join out Catalog.file) →
      exec (run p out paths flags) w = (.ok m, w') →
      Session.readCatalog w'.files out = .ok m :=
  ⟨fun m => ⟨m.read?_line, m.read?_page⟩,
    fun _ _ _ _ _ _ hp h => readCatalog_of_exec_run hp h⟩

/-- A machine with one header, which declares a class and an enumeration. -/
def oneHeader : World Script.Stage String where
  files := ⟨[("/p.hpp", .bytes (Text.encode "struct P { int x; }; enum Color { Red };"))], []⟩
  outside := {}

/-- The enumeration table can be compiled. -/
def withEnums : Script where
  parts := [Script.enumPart none]

theorem stored_catalog_read_back_oneHeader :
    (Script.platform withEnums).Spares (Path.join "/out" Catalog.file) ∧
    ∃ m w', exec (run (Script.platform withEnums) "/out" ["/p.hpp"] []) oneHeader = (.ok m, w') ∧
      m.classes.length = 1 ∧ m.enums.length = 1 ∧ Session.readCatalog w'.files "/out" = .ok m := by
  have hp := (Cache.writesOnlyOutput_script withEnums).spares (Path.join "/out" Catalog.file)
  have hlengths : (exec (run (Script.platform withEnums) "/out" ["/p.hpp"] [])
      oneHeader).1.toOption.map (fun m => (m.classes.length, m.enums.length)) = some (1, 1) := by
    decide +kernel
  rcases h : exec (run (Script.platform withEnums) "/out" ["/p.hpp"] []) oneHeader with ⟨e | m, w'⟩
  · rw [h] at hlengths
    exact absurd hlengths nofun
  · rw [h] at hlengths
    obtain ⟨hclasses, henums⟩ := Prod.mk.inj (Option.some.inj hlengths)
    exact ⟨hp, m, w', rfl, hclasses, henums,
      (stored_catalog_read_back _).2 "/out" ["/p.hpp"] [] oneHeader m w' hp h⟩

end Setup
end Bindery
