/-
# Headers that setting up generates

Setting up writes headers of its own into the build directory: the prelude, and an accessor header
for each class. Generated sources include them, and the headers of the library, by their names, and
a name is looked for in the build directory first. So a generated header must not have the name of
another one, nor that of a header of the library (`Setup.Apart`).

Names come from classes, from files, and from the prelude, and nothing keeps them apart:

| headers | what happens |
| --- | --- |
| `Grid.hpp` declares `Grid` | the accessor header of `Grid` hides the header of the library |
| `P` is declared in two namespaces | both have one accessor header |
| `bind_abi` is a class | its accessor header replaces the prelude |
| `bind_abi.hpp` is in the library | the prelude hides it |

These are the only ways (`Setup.generated_headers`). Without them every generated header is there
at the end, and no library header has come to lie in the build directory.
-/

import Bindery.Proofs.Session.StoredCatalog
import Bindery.Proofs.Store.Directory
import Mathlib.Data.List.Nodup

namespace Bindery

variable {σ L : Type}

namespace Setup

/-! ### Files that are replaced one after the other -/

section

variable {β : Type} {path : β → String} {content : β → List UInt8}

theorem get?_of_foldlM {cs : List β} {files files' : Files L} {other : String}
    (h : cs.foldlM (fun files c => ofFile (files.replace (path c) (content c))) files = .ok files')
    (hother : ∀ c ∈ cs, other ≠ path c ∧ other ≠ Files.staging (path c)) :
    files'.get? other = files.get? other := by
  induction cs generalizing files with
  | nil => rw [Except.ok.inj h]
  | cons c cs ih =>
    obtain ⟨next, hreplace, hrest⟩ := exists_of_bind_eq_ok h
    obtain ⟨hpath, hstaging⟩ := hother c List.mem_cons_self
    rw [ih hrest fun d hd => hother d (List.mem_cons_of_mem c hd)]
    exact Files.get?_of_replace (eq_ok_of_mapError_eq_ok hreplace) hpath hstaging

/-- A file that is replaced always by the same bytes, at least once or with these bytes before, has
these bytes at the end. -/
theorem get?_of_foldlM_same {cs : List β} {files files' : Files L} {target : String}
    {bytes : List UInt8}
    (h : cs.foldlM (fun files c => ofFile (files.replace (path c) (content c))) files = .ok files')
    (hsame : ∀ c ∈ cs, path c = target → content c = bytes)
    (hstaging : ∀ c ∈ cs, target ≠ Files.staging (path c))
    (hwritten : (∃ c ∈ cs, path c = target) ∨ files.get? target = some (.bytes bytes)) :
    files'.get? target = some (.bytes bytes) := by
  induction cs generalizing files with
  | nil =>
    obtain rfl := Except.ok.inj h
    exact hwritten.resolve_left fun ⟨c, hc, _⟩ => absurd hc List.not_mem_nil
  | cons c cs ih =>
    obtain ⟨next, hreplace, hrest⟩ := exists_of_bind_eq_ok h
    have hreplace := eq_ok_of_mapError_eq_ok hreplace
    refine ih hrest (fun d hd => hsame d (List.mem_cons_of_mem c hd))
      (fun d hd => hstaging d (List.mem_cons_of_mem c hd)) ?_
    by_cases hpath : path c = target
    · right
      rw [← hsame c List.mem_cons_self hpath, ← hpath]
      exact Files.get?_of_replace_self hreplace
    · rw [Files.get?_of_replace hreplace (Ne.symm hpath) (hstaging c List.mem_cons_self)]
      refine hwritten.imp_left ?_
      rintro ⟨d, hd, hdpath⟩
      refine ⟨d, (List.mem_cons.1 hd).resolve_left ?_, hdpath⟩
      rintro rfl
      exact hpath hdpath

end

/-! ### Names in the build directory -/

/-- The names of the headers that setting up generates. -/
def generated (m : Catalog) : List String :=
  Source.preludeFile :: m.classes.map fun c => Source.accessorHeader c.name

/-- The names of the files that the enumeration table needs. -/
def enumFiles : List String :=
  [Source.sourceFile Source.enumStem, Source.sourceFile Source.enumStem ++ ".tmp",
    Source.artifactFile Source.enumStem]

/-- The names of the other files that setting up writes into the build directory. -/
def working (m : Catalog) : List String :=
  Toolchain.rulesFile :: enumFiles ++
    m.classes.map fun c => Source.accessorHeader c.name ++ ".tmp"

/-- No class has a `/` in its name. -/
def Plain (m : Catalog) : Prop := ∀ c ∈ m.classes, '/' ∉ c.name.toList

theorem isName_accessorHeader {name : String} (h : '/' ∉ name.toList) :
    Path.IsName (Source.accessorHeader name) := by
  refine ⟨?_, ?_⟩ <;> rw [Source.accessorHeader, String.toList_append]
  · exact List.append_ne_nil_of_right_ne_nil _ (by decide)
  · rw [List.mem_append]
    exact not_or.2 ⟨h, by decide⟩

theorem accessorHeader_inj {name other : String} :
    Source.accessorHeader name = Source.accessorHeader other ↔ name = other :=
  String.append_left_inj ".hpp"

theorem suffix_accessorHeader (name : String) :
    ".hpp".toList <:+ (Source.accessorHeader name).toList :=
  ⟨name.toList, String.toList_append.symm⟩

/-- No accessor header has a name under which files are staged. -/
theorem accessorHeader_ne_staged (name other : String) :
    Source.accessorHeader name ≠ other ++ ".tmp" := by
  intro h
  have hlist := congrArg String.toList h
  rw [Source.accessorHeader, String.toList_append, String.toList_append] at hlist
  exact absurd (List.append_inj_right' hlist (by simp)) (by simp)

theorem isName_enumFiles {name : String} (h : name ∈ enumFiles) : Path.IsName name := by
  have hstem : Path.IsName Source.enumStem := ⟨by decide, by decide⟩
  simp only [enumFiles, List.mem_cons, List.not_mem_nil, or_false] at h
  rcases h with rfl | rfl | rfl
  · exact isName_sourceFile hstem
  · exact (isName_sourceFile hstem).append (by decide)
  · exact isName_artifactFile hstem

theorem accessorHeader_notMem_enumFiles (name : String) :
    Source.accessorHeader name ∉ enumFiles := by
  intro h
  have hsuffix : ∀ file ∈ enumFiles, ¬ ".hpp".toList <:+ file.toList := by decide
  exact hsuffix _ h (suffix_accessorHeader name)

theorem preludeFile_notMem_enumFiles : Source.preludeFile ∉ enumFiles :=
  accessorHeader_notMem_enumFiles "bind_abi"

/-- The catalog does not lie in the build directory. -/
theorem catalogPath_ne_join (out : String) {name : String} (h : Path.IsName name) :
    Path.join (dirOf out) name ≠ Path.join out Catalog.file := by
  have hdir : dirOf out = Path.lead out ++ buildDir := Path.join_eq ⟨by decide, by decide⟩
  have hlead : Path.lead (dirOf out) = dirOf out ++ "/" := by
    have hlast : (dirOf out).toList.getLast? = some 'd' := Cache.getLast?_join (by decide)
    have hne : dirOf out ≠ "" := by
      intro hempty
      rw [hempty] at hlast
      exact absurd hlast (by decide)
    rw [Path.lead, if_neg hne, if_neg (by rw [hlast]; decide)]
  have hcatalog : Path.IsName Catalog.file := ⟨by decide, by decide⟩
  rw [Path.join_eq h, Path.join_eq hcatalog, hlead, hdir]
  intro heq
  have hlist := congrArg String.toList heq
  simp only [String.toList_append, List.append_assoc] at hlist
  have hfirst := congrArg List.head? (List.append_cancel_left hlist)
  exact absurd hfirst (by simp [buildDir, Catalog.file])

namespace Course

variable {p : Platform σ L} {out : String} {paths flags : List String} {w w' : World σ L}
  {m : Catalog} {found : List String} {r : Reflection} {started : Files L} {ready : World σ L}
  {headed stored : Files L}
  (course : Course p out paths flags w w' m found r started ready headed stored)

include course

theorem classes : m.classes = r.classes.map .ofInfo := by
  rw [course.catalog]
  rfl

/-- Behind the accessor headers nothing happens to files of the build directory but those of the
enumeration table. -/
theorem get?_of_headed (hcompile : p.WritesOnlyOutput) {name : String}
    (hname : Path.IsName name) (hother : name ∉ enumFiles) :
    w'.files.get? (Path.join (dirOf out) name) = headed.get? (Path.join (dirOf out) name) := by
  have hstored := Files.get?_of_write course.saved (catalogPath_ne_join out hname)
  rcases course.enums with rfl | ⟨u, htable⟩
  · exact hstored
  have hne : ∀ other ∈ enumFiles, Path.join (dirOf out) name ≠ Path.join (dirOf out) other := by
    intro other hmem heq
    exact hother (Path.join_inj hname (isName_enumFiles hmem) heq ▸ hmem)
  refine (get?_of_exec_enumTable (hcompile.spares _) (hne _ (by simp [enumFiles])) ?_
    (hne _ (by simp [enumFiles])) htable).trans hstored
  rw [Path.staging_join (isName_enumFiles (by simp [enumFiles]))]
  exact hne _ (by simp [enumFiles])

theorem isName (plain : Plain m) {c : ClassInfo} (hc : c ∈ r.classes) :
    Path.IsName (Source.accessorHeader c.name) :=
  isName_accessorHeader (plain (.ofInfo c) (course.classes ▸ List.mem_map_of_mem hc))

/-- Writing the accessor headers does nothing to files of other names. -/
theorem get?_headed (plain : Plain m) {name : String} (hname : Path.IsName name)
    (hother : ∀ c ∈ m.classes, name ≠ Source.accessorHeader c.name ∧
      name ≠ Source.accessorHeader c.name ++ ".tmp") :
    headed.get? (Path.join (dirOf out) name) = ready.files.get? (Path.join (dirOf out) name) := by
  refine get?_of_foldlM course.accessors fun c hc => ?_
  have hheader := course.isName plain hc
  obtain ⟨hne, hstaged⟩ := hother (.ofInfo c) (course.classes ▸ List.mem_map_of_mem hc)
  rw [Path.staging_join hheader]
  exact ⟨fun heq => hne (Path.join_inj hname hheader heq),
    fun heq => hstaged (Path.join_inj hname (hheader.append (by decide)) heq)⟩

/-- Every class has its accessor header at the end. -/
theorem read?_accessorHeader (plain : Plain m) (hcompile : p.WritesOnlyOutput) {c : ClassInfo}
    (hc : c ∈ r.classes) :
    w'.files.read? (Path.join (dirOf out) (Source.accessorHeader c.name)) =
      some (Text.encode (accessorUnit r m.includes c).text) := by
  have hheader := course.isName plain hc
  have hheaded : headed.get? (Path.join (dirOf out) (Source.accessorHeader c.name)) =
      some (.bytes (Text.encode (accessorUnit r m.includes c).text)) := by
    refine get?_of_foldlM_same course.accessors ?_ ?_ (.inl ⟨c, hc, rfl⟩)
    · -- Classes of one name have one accessor header.
      intro d hd hpath
      have hnames := accessorHeader_inj.1 (Path.join_inj (course.isName plain hd) hheader hpath)
      rw [accessorUnit, accessorUnit, hnames]
    · intro d hd heq
      rw [Path.staging_join (course.isName plain hd)] at heq
      exact accessorHeader_ne_staged _ _
        (Path.join_inj hheader ((course.isName plain hd).append (by decide)) heq)
  rw [Files.read?, course.get?_of_headed hcompile hheader (accessorHeader_notMem_enumFiles _),
    hheaded]

/-- The prelude is there at the end, unless a class takes its place. -/
theorem read?_preludeFile (plain : Plain m) (hrules : p.PreparesRules)
    (hcompile : p.WritesOnlyOutput)
    (hclass : ∀ c ∈ m.classes, Source.preludeFile ≠ Source.accessorHeader c.name) :
    w'.files.read? (Path.join (dirOf out) Source.preludeFile) =
      some (Text.encode Source.prelude) := by
  have hname := isName_preludeFile
  have hrule : Path.join (dirOf out) Source.preludeFile ≠
      Path.join (dirOf out) Toolchain.rulesFile := fun heq =>
    absurd (Path.join_inj hname isName_rulesFile heq) (by decide)
  rw [Files.read?, course.get?_of_headed hcompile hname preludeFile_notMem_enumFiles,
    course.get?_headed plain hname fun c hc => ⟨hclass c hc, accessorHeader_ne_staged "bind_abi" _⟩,
    course.rules, (hrules _ _ _).1 _ hrule]
  exact Files.read?_of_write course.prelude

/-- Other files of the build directory are as they were. -/
theorem get?_of_notMem (plain : Plain m) (hrules : p.PreparesRules)
    (hcompile : p.WritesOnlyOutput) {name : String} (hname : Path.IsName name)
    (hgenerated : name ∉ generated m) (hworking : name ∉ working m) :
    w'.files.get? (Path.join (dirOf out) name) = w.files.get? (Path.join (dirOf out) name) := by
  simp only [generated, List.mem_cons, List.mem_map, not_or, not_exists, not_and] at hgenerated
  simp only [working, List.cons_append, List.mem_cons, List.mem_append, List.mem_map, not_or,
    not_exists, not_and] at hworking
  obtain ⟨hprelude, haccessors⟩ := hgenerated
  obtain ⟨hrulesFile, henums, hstaged⟩ := hworking
  rw [course.get?_of_headed hcompile hname henums,
    course.get?_headed plain hname fun c hc =>
      ⟨Ne.symm (haccessors c hc), Ne.symm (hstaged c hc)⟩, course.rules,
    (hrules _ _ _).1 _ fun heq => hrulesFile (Path.join_inj hname isName_rulesFile heq)]
  exact Files.get?_of_write course.prelude fun heq =>
    hprelude (Path.join_inj hname isName_preludeFile heq)

end Course

/-! ### Headers that do not hide one another -/

/-- The generated headers have different names, and names that no header of the library has. -/
structure Apart (m : Catalog) : Prop where
  distinct : (generated m).Nodup
  fresh : ∀ name ∈ m.includes, name ∉ generated m

theorem preludeFile_eq : Source.preludeFile = Source.accessorHeader "bind_abi" := rfl

/-- **What keeps generated headers apart.** -/
theorem apart_iff (m : Catalog) :
    Apart m ↔ (m.classes.map (·.name)).Nodup ∧ Source.preludeFile ∉ m.includes ∧
      ∀ c ∈ m.classes, c.name ≠ "bind_abi" ∧ Source.accessorHeader c.name ∉ m.includes := by
  have hheaders : (m.classes.map fun c => Source.accessorHeader c.name) =
      (m.classes.map (·.name)).map Source.accessorHeader := by
    rw [List.map_map]
    rfl
  have hinj : Function.Injective Source.accessorHeader := fun _ _ => accessorHeader_inj.1
  have hprelude : Source.preludeFile ∉ (m.classes.map fun c => Source.accessorHeader c.name) ↔
      ∀ c ∈ m.classes, c.name ≠ "bind_abi" := by
    rw [preludeFile_eq, hheaders, List.mem_map_of_injective hinj]
    simp only [List.mem_map, not_exists, not_and, ne_eq]
  have hdistinct : (generated m).Nodup ↔
      (∀ c ∈ m.classes, c.name ≠ "bind_abi") ∧ (m.classes.map (·.name)).Nodup := by
    rw [generated, List.nodup_cons, hprelude, hheaders, List.nodup_map_iff hinj]
  have hfresh : (∀ name ∈ m.includes, name ∉ generated m) ↔
      Source.preludeFile ∉ m.includes ∧
        ∀ c ∈ m.classes, Source.accessorHeader c.name ∉ m.includes := by
    constructor
    · intro h
      exact ⟨fun hmem => h _ hmem List.mem_cons_self, fun c hc hmem =>
        h _ hmem (List.mem_cons_of_mem _ (List.mem_map.2 ⟨c, hc, rfl⟩))⟩
    · rintro ⟨hfile, hclass⟩ name hmem hgenerated
      rcases List.mem_cons.1 hgenerated with rfl | hgenerated
      · exact hfile hmem
      · obtain ⟨c, hc, rfl⟩ := List.mem_map.1 hgenerated
        exact hclass c hc hmem
  constructor
  · rintro ⟨h, h'⟩
    obtain ⟨hname, hnodup⟩ := hdistinct.1 h
    obtain ⟨hfile, hclass⟩ := hfresh.1 h'
    exact ⟨hnodup, hfile, fun c hc => ⟨hname c hc, hclass c hc⟩⟩
  · rintro ⟨hnodup, hfile, hclass⟩
    exact ⟨hdistinct.2 ⟨fun c hc => (hclass c hc).1, hnodup⟩,
      hfresh.2 ⟨hfile, fun c hc => (hclass c hc).2⟩⟩

/-- What setting up does in a build directory: it leaves an accessor header for each class, and the
prelude unless a class takes its place, and touches nothing else but its working files. -/
structure Generates (dir : String) (files files' : Files L) (m : Catalog) (r : Reflection) :
    Prop where
  accessor : ∀ c ∈ r.classes,
    files'.read? (Path.join dir (Source.accessorHeader c.name)) =
      some (Text.encode (accessorUnit r m.includes c).text)
  prelude : (∀ c ∈ m.classes, Source.preludeFile ≠ Source.accessorHeader c.name) →
    files'.read? (Path.join dir Source.preludeFile) = some (Text.encode Source.prelude)
  beside : ∀ name, Path.IsName name → name ∉ generated m → name ∉ working m →
    files'.get? (Path.join dir name) = files.get? (Path.join dir name)

/-- What an include line finds in a build directory: the prelude, the accessor header of each class,
and for a header of the library nothing that setting up put there. -/
structure Finds (dir : String) (files files' : Files L) (m : Catalog) (r : Reflection) : Prop where
  prelude : files'.read? (Path.join dir Source.preludeFile) = some (Text.encode Source.prelude)
  accessor : ∀ c ∈ r.classes,
    files'.read? (Path.join dir (Source.accessorHeader c.name)) =
      some (Text.encode (accessorUnit r m.includes c).text)
  library : ∀ name ∈ m.includes, name ∉ working m →
    files'.get? (Path.join dir name) = files.get? (Path.join dir name)

theorem Generates.finds {dir : String} {files files' : Files L} {m : Catalog} {r : Reflection}
    (h : Generates dir files files' m r) (apart : Apart m)
    (hincludes : ∀ name ∈ m.includes, Path.IsName name) : Finds dir files files' m r where
  prelude := h.prelude fun c hc heq =>
    (List.nodup_cons.1 apart.distinct).1 (List.mem_map.2 ⟨c, hc, heq.symm⟩)
  accessor := h.accessor
  library name hmem := h.beside name (hincludes name hmem) (apart.fresh name hmem)

/-- **Generated headers.** What an output directory is set up for decides whether the headers that
are generated hide one another or those of the library: they do not, exactly if classes differ in
their names, none is named `bind_abi`, and the library has neither `bind_abi.hpp` nor a header
named for a class. If so, every include line of a generated source finds what it is meant for. -/
theorem generated_headers {p : Platform σ L} {out : String} {paths flags : List String}
    {w w' : World σ L} {m : Catalog} (h : exec (run p out paths flags) w = (.ok m, w')) :
    (Apart m ↔ (m.classes.map (·.name)).Nodup ∧ Source.preludeFile ∉ m.includes ∧
      ∀ c ∈ m.classes, c.name ≠ "bind_abi" ∧ Source.accessorHeader c.name ∉ m.includes) ∧
    (p.PreparesRules → p.WritesOnlyOutput → Plain m →
      ∃ r, m = .ofReflection r m.includes m.flags ∧
        Generates (dirOf out) w.files w'.files m r ∧
        (Apart m → Finds (dirOf out) w.files w'.files m r)) := by
  refine ⟨apart_iff m, fun hrules hcompile plain => ?_⟩
  obtain ⟨found, r, started, ready, headed, stored, course⟩ := course_of_exec_run h
  have hgenerates : Generates (dirOf out) w.files w'.files m r :=
    ⟨fun c hc => course.read?_accessorHeader plain hcompile hc,
      course.read?_preludeFile plain hrules hcompile,
      fun name => course.get?_of_notMem plain hrules hcompile⟩
  refine ⟨r, ?_, hgenerates, fun apart => hgenerates.finds apart fun name hmem => ?_⟩
  · rw [course.catalog]
    rfl
  · rw [course.catalog] at hmem
    obtain ⟨path, -, hpath⟩ := List.mem_filterMap.1 hmem
    exact Path.isName_of_fileName? hpath

/-- The hypotheses of `generated_headers` are satisfiable: one header declares a class that is not
named as the header is. -/
theorem generated_headers_oneHeader :
    (Script.platform withEnums).PreparesRules ∧ (Script.platform withEnums).WritesOnlyOutput ∧
    ∃ m w', exec (run (Script.platform withEnums) "/out" ["/p.hpp"] []) oneHeader = (.ok m, w') ∧
      Plain m ∧ Apart m ∧
      ∃ r, m = .ofReflection r m.includes m.flags ∧
        Finds (dirOf "/out") oneHeader.files w'.files m r := by
  have hrules := preparesRules_script withEnums
  have hcompile := Cache.writesOnlyOutput_script withEnums
  have hnames : (exec (run (Script.platform withEnums) "/out" ["/p.hpp"] [])
      oneHeader).1.toOption.map (fun m => (m.classes.map (·.name), m.includes)) =
      some (["P"], ["p.hpp"]) := by
    decide +kernel
  rcases h : exec (run (Script.platform withEnums) "/out" ["/p.hpp"] []) oneHeader with ⟨e | m, w'⟩
  · rw [h] at hnames
    exact absurd hnames nofun
  rw [h] at hnames
  obtain ⟨hclasses, hincludes⟩ := Prod.mk.inj (Option.some.inj hnames)
  obtain ⟨hapart, hfinds⟩ := generated_headers h
  have hname : ∀ c ∈ m.classes, c.name = "P" := by
    intro c hc
    have hmem : c.name ∈ m.classes.map (·.name) := List.mem_map_of_mem hc
    rw [hclasses] at hmem
    exact List.mem_singleton.1 hmem
  have plain : Plain m := by
    intro c hc
    rw [hname c hc]
    decide
  have apart : Apart m := by
    refine hapart.2 ⟨by rw [hclasses]; decide, by rw [hincludes]; decide, fun c hc => ?_⟩
    rw [hname c hc, hincludes]
    decide
  obtain ⟨r, hr, -, hrfinds⟩ := hfinds hrules hcompile plain
  exact ⟨hrules, hcompile, m, w', rfl, plain, apart, r, hr, hrfinds apart⟩

/-- A machine with one header, named as the class that it declares. -/
def namedAsClass : World Script.Stage String where
  files := ⟨[("/Grid.hpp", .bytes (Text.encode "struct Grid { int nx; };"))], []⟩
  outside := {}

/-- Setting up for a header named as its class ends well, and the accessor header of the class hides
the header of the library. -/
theorem not_apart_namedAsClass :
    ∃ m w', exec (run (Script.platform {}) "/out" ["/Grid.hpp"] []) namedAsClass = (.ok m, w') ∧
      "Grid.hpp" ∈ m.includes ∧ "Grid.hpp" ∈ generated m ∧ ¬ Apart m := by
  have hnames : (exec (run (Script.platform {}) "/out" ["/Grid.hpp"] [])
      namedAsClass).1.toOption.map (fun m => (generated m, m.includes)) =
      some (["bind_abi.hpp", "Grid.hpp"], ["Grid.hpp"]) := by
    decide +kernel
  rcases h : exec (run (Script.platform {}) "/out" ["/Grid.hpp"] []) namedAsClass with ⟨e | m, w'⟩
  · rw [h] at hnames
    exact absurd hnames nofun
  rw [h] at hnames
  obtain ⟨hgenerated, hincludes⟩ := Prod.mk.inj (Option.some.inj hnames)
  have hlibrary : "Grid.hpp" ∈ m.includes := by
    rw [hincludes]
    decide
  have hheader : "Grid.hpp" ∈ generated m := by
    rw [hgenerated]
    decide
  exact ⟨m, w', rfl, hlibrary, hheader, fun apart => apart.fresh _ hlibrary hheader⟩

end Setup
end Bindery
