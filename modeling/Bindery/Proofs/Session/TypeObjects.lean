/-
# Type objects of classes

A class is asked for by its bare name or behind its namespace. The catalog looks classes up by their
bare names, so that behind a namespace none is found:

| asked for | found in the catalog | registered |
| --- | --- | --- |
| bare name of a class | the class | yes |
| bare name of a template, with arguments | the template | yes |
| bare name of a template, without arguments | the template | no |
| name behind a namespace | nothing | yes |

The namespace then is read off the name itself, and what is left of the name is the same. So both
spellings are answered alike, with one exception: a template without arguments is registered when it
is asked for behind its namespace, as if it were a class (`Session.classType_spellings_iff`). This
shows unless something is registered under its name already.
-/

import Bindery.Native.Script
import Bindery.Proofs.Cpp.ClassPath
import Bindery.Proofs.Lookup
import Bindery.Proofs.Session.CallKinds
import Bindery.Proofs.Session.Emission

namespace Bindery

/-! ### Bare names of paths -/

namespace Spelling

open Text

/-- A path has nothing but its last part to give as a bare name. -/
theorem bareChars_of_path {cs : List Char} (h : ∀ c ∈ cs, Header.isWordChar c = true ∨ c = ':') :
    bareChars cs = trim (lastSegment cs) := by
  have hblank : Tight cs := by
    intro c hc
    rcases h c hc with hword | rfl
    · exact Bool.eq_false_iff.2 fun hblank =>
        Bool.false_ne_true ((not_isWordChar_of_isBlank hblank).symm.trans hword)
    · decide
  have hgroup : ∀ c ∈ cs, isGroup c = false := by
    intro c hc
    rw [Bool.eq_false_iff]
    intro hgroup
    simp only [isGroup, Bool.or_eq_true, beq_iff_eq] at hgroup
    rcases hgroup with ((rfl | rfl) | rfl) | rfl <;> exact absurd (h _ hc) (by decide)
  have hdecoration : ∀ c ∈ cs, isDecoration c = false := by
    intro c hc
    rw [isDecoration, hblank c hc, Bool.or_false, Bool.eq_false_iff]
    intro hsign
    simp only [Bool.or_eq_true, beq_iff_eq] at hsign
    rcases hsign with rfl | rfl <;> exact absurd (h _ hc) (by decide)
  have hends : dropEndWhile isDecoration cs = cs := by
    have hkept : dropEndWhile isDecoration (cs ++ []) = cs :=
      dropEndWhile_append (List.forall_mem_nil _) fun c hc =>
        hdecoration c (List.mem_of_mem_getLast? hc)
    rwa [List.append_nil] at hkept
  have hconst : afterStart? "const ".toList cs = none := by
    rw [afterStart?, if_neg]
    intro hbegins
    have hmem := (List.isPrefixOf_iff_prefix.1 hbegins).subset (a := ' ') (by decide)
    exact absurd (hblank ' ' hmem) (by decide)
  rw [bareChars, outside_of_plain hgroup, hblank.trim, hends, hconst]
  rfl

theorem colon_notMem_of_isName {name : String} (h : IsName name) : ':' ∉ name.toList :=
  fun hmem => absurd (h ':' hmem) (by decide)

theorem trim_of_isName {name : String} (h : IsName name) : trim name.toList = name.toList := by
  have htight : Tight name.toList := fun c hc => Bool.eq_false_iff.2 fun hblank =>
    Bool.false_ne_true ((not_isWordChar_of_isBlank hblank).symm.trans (h c hc))
  exact htight.trim

theorem bare_of_isName {name : String} (h : IsName name) : bare name = name := by
  rw [bare, bareChars_of_path fun c hc => .inl (h c hc), lastSegment,
    afterScope_of_not_mem (colon_notMem_of_isName h), trim_of_isName h, String.ofList_toList]

/-- The bare name of a name behind its namespace is the name. -/
theorem bare_qualify {name : String} {space : Option String} (hname : IsName name)
    (hspace : ∀ path ∈ space, IsPath path) : bare (qualify space name) = bare name := by
  have hpath := Keyed.isPath_qualify hname hspace
  unfold qualify at hpath ⊢
  split at hpath
  · rename_i ns
    split at hpath
    · rename_i hempty
      rw [if_pos hempty]
    · rename_i hnonempty
      have hsplit : (ns ++ "::" ++ name).toList = ns.toList ++ (scope ++ name.toList) := by
        simp only [String.toList_append, List.append_assoc]
        rfl
      rw [if_neg hnonempty, bare, bareChars_of_path hpath, hsplit,
        lastSegment_append_scope (colon_notMem_of_isName hname), trim_of_isName hname,
        String.ofList_toList, bare_of_isName hname]
  · rfl

end Spelling

/-! ### Looking up a class -/

namespace Catalog

variable {m : Catalog} {c : ClassEntry}

theorem class?_name (distinct : (m.classes.map fun k => Spelling.bare k.name).Nodup)
    (hc : c ∈ m.classes) : m.class? c.name = some c := by
  have hnames : (m.classes.map (·.name)).Nodup := by
    refine List.Nodup.of_map Spelling.bare ?_
    rwa [List.map_map]
  exact find?_of_nodup hnames hc

/-- No class is found behind a namespace. -/
theorem class?_qualifiedName (distinct : (m.classes.map fun k => Spelling.bare k.name).Nodup)
    (hc : c ∈ m.classes) (hname : IsName c.name) (hspace : ∀ path ∈ c.space, IsPath path)
    (hqualified : c.qualifiedName ≠ c.name) : m.class? c.qualifiedName = none := by
  refine List.find?_eq_none.2 fun k hk hfound => hqualified ?_
  have hkname : k.name = c.qualifiedName := by simpa using hfound
  have hbare : Spelling.bare k.name = Spelling.bare c.name := by
    rw [hkname]
    exact Spelling.bare_qualify hname hspace
  rw [← hkname, List.inj_on_of_nodup_map distinct hk hc hbare]

end Catalog

/-! ### Registering what is asked for -/

namespace Session

variable {σ L : Type} {s : Session σ L} {b : Bench σ L}

/-- The type object of a class that is registered first. -/
def registeredType (s : Session σ L) (cppType className : String) : Ask σ L (Val L) := do
  discard (Action.wrapError .cache (Cache.ensureClass s.platform cppType))
  return .type ⟨cppType, className⟩

theorem classType_of_registered {name : String} {args : Option (List TemplateArg)}
    (h : (!(s.catalog.class? name).any (·.isTemplate) || args.isSome) = true) :
    s.classType name args = s.registeredType
      (templatedName name ((s.catalog.class? name).bind (·.space)) args) (Spelling.bare name) := by
  rw [classType]
  exact if_pos h

theorem templatedName_none (c : ClassEntry) :
    templatedName c.name c.space none = c.qualifiedName := by
  simp [templatedName, templateArgsText, ClassEntry.qualifiedName]

/-- A template without arguments is a type, and nothing is done. -/
theorem exec_classType_of_open {c : ClassEntry} (h : s.catalog.class? c.name = some c)
    (htemplate : c.isTemplate = true) (b : Bench σ L) :
    exec (s.classType c.name none) b =
      (.ok (.type ⟨c.qualifiedName, Spelling.bare c.name⟩), b) := by
  rw [classType, h]
  simp [htemplate, templatedName_none]

theorem exec_registeredType_ok {cppType : String} {d : Binding L} {b b' : Bench σ L}
    (h : exec (Cache.ensureClass s.platform cppType) b = (.ok d, b')) (className : String) :
    exec (s.registeredType cppType className) b = (.ok (.type ⟨cppType, className⟩), b') := by
  rw [registeredType, exec_bind, exec_discard, Action.exec_wrapError, h]
  rfl

theorem exec_registeredType_error {cppType : String} {e : CacheError} {b b' : Bench σ L}
    (h : exec (Cache.ensureClass s.platform cppType) b = (.error e, b')) (className : String) :
    exec (s.registeredType cppType className) b = (.error (.cache e), b') := by
  rw [registeredType, exec_bind, exec_discard, Action.exec_wrapError, h]
  rfl

/-- What is registered shows, unless it was at hand before. -/
theorem exec_registeredType_iff (cppType className : String) (b : Bench σ L) :
    exec (s.registeredType cppType className) b = (.ok (.type ⟨cppType, className⟩), b) ↔
      ∃ d, b.cache.class? (Spelling.normalize cppType) = some d := by
  have hnew : b.cache.class? (Spelling.normalize cppType) = none →
      ¬ ∃ d, b.cache.class? (Spelling.normalize cppType) = some d := by
    rintro hnone ⟨d, hd⟩
    exact absurd (hd.symm.trans hnone) (Option.some_ne_none d)
  rcases hensure : exec (Cache.ensureClass s.platform cppType) b with ⟨r, b'⟩
  cases Cache.registering_of_exec hensure with
  | known h => exact iff_of_true (exec_registeredType_ok hensure className) ⟨_, h⟩
  | failed h =>
    rw [exec_registeredType_error hensure]
    exact iff_of_false (fun heq => ok_ne_error heq.symm) (hnew h)
  | new h attempt =>
    rw [exec_registeredType_ok hensure]
    refine iff_of_false (fun heq => ?_) (hnew h)
    have hcount := congrArg (fun b => b.cache.stats.classRegistrations) (Prod.mk.inj heq).2
    have hkept := attempt.sameMemory.classRegistrations
    simp only [Bench.registered, Bench.recorded, Bench.count, Bench.worked] at hcount hkept
    omega

/-- **The bare and the qualified spelling of a class are answered alike,** in result and in what is
done, if and only if it is no template without arguments behind a namespace, or something is
registered under its name already. -/
theorem classType_spellings_iff (s : Session σ L) (b : Bench σ L) {c : ClassEntry}
    (distinct : (s.catalog.classes.map fun k => Spelling.bare k.name).Nodup)
    (hc : c ∈ s.catalog.classes) (hname : IsName c.name) (hspace : ∀ path ∈ c.space, IsPath path)
    (args : Option (List TemplateArg)) :
    (exec (s.classType c.name args) b = exec (s.classType c.qualifiedName args) b ↔
      (c.isTemplate = true → args = none → c.qualifiedName ≠ c.name →
        ∃ d, b.cache.class? (Spelling.normalize c.qualifiedName) = some d)) ∧
    (c.isTemplate = true → exec (s.classType c.name none) b =
      (.ok (.type ⟨c.qualifiedName, Spelling.bare c.name⟩), b)) := by
  have hbare : s.catalog.class? c.name = some c := Catalog.class?_name distinct hc
  refine ⟨?_, fun htemplate => exec_classType_of_open hbare htemplate b⟩
  by_cases hsame : c.qualifiedName = c.name
  · rw [hsame]
    exact iff_of_true rfl fun _ _ hne => absurd rfl hne
  -- The qualified spelling is not found, but its parts are those that are put together otherwise.
  have hqualified : s.catalog.class? c.qualifiedName = none :=
    Catalog.class?_qualifiedName distinct hc hname hspace hsame
  have hclass : Spelling.bare c.qualifiedName = Spelling.bare c.name :=
    Spelling.bare_qualify hname hspace
  have htext : templatedName c.qualifiedName none args = templatedName c.name c.space args := rfl
  have hregistered : s.classType c.qualifiedName args =
      s.registeredType (templatedName c.name c.space args) (Spelling.bare c.name) := by
    rw [classType_of_registered (by rw [hqualified]; rfl), hqualified, hclass, Option.bind_none,
      htext]
  rw [hregistered]
  by_cases hopen : c.isTemplate = true ∧ args = none
  · obtain ⟨htemplate, rfl⟩ := hopen
    rw [exec_classType_of_open hbare htemplate, templatedName_none, eq_comm,
      exec_registeredType_iff]
    exact ⟨fun h _ _ _ => h, fun h => h htemplate rfl hsame⟩
  · have hclosed : (!(s.catalog.class? c.name).any (·.isTemplate) || args.isSome) = true := by
      rw [hbare]
      cases htemplate : c.isTemplate with
      | false => simp [htemplate]
      | true =>
        cases args with
        | none => exact absurd ⟨htemplate, rfl⟩ hopen
        | some as => simp
    rw [classType_of_registered hclosed, hbare]
    exact iff_of_true rfl fun htemplate hargs => absurd ⟨htemplate, hargs⟩ hopen

/-! ### A template in a namespace -/

namespace Grids

/-- A template in a namespace. -/
def grid : ClassEntry := ⟨"Grid", some "geo", true, none, none, [.constructor]⟩

/-- A session that knows the template. -/
def session : Session Script.Stage String :=
  ⟨Script.platform {}, ⟨[], [], [grid], [], []⟩, .ofRows []⟩

/-- A bench at which nothing was done yet. -/
def bench : Bench Script.Stage String := ⟨{ dir := "/build", context := {} }, ⟨{}, {}, 0⟩⟩

end Grids

open Grids in
/-- The hypotheses of `classType_spellings_iff` are satisfiable: with arguments, the template is
answered alike in both spellings. -/
theorem classType_spellings_grid :
    (session.catalog.classes.map fun k => Spelling.bare k.name).Nodup ∧
      grid ∈ session.catalog.classes ∧ IsName grid.name ∧ (∀ path ∈ grid.space, IsPath path) ∧
      exec (session.classType "Grid" (some [.integer 3])) bench =
        exec (session.classType "geo::Grid" (some [.integer 3])) bench := by
  have distinct : (session.catalog.classes.map fun k => Spelling.bare k.name).Nodup := by decide
  have hgrid : grid ∈ session.catalog.classes := List.mem_singleton_self grid
  have hname : IsName grid.name := by decide
  have hspace : ∀ path ∈ grid.space, IsPath path := by
    intro path hpath
    obtain rfl := Option.some.inj hpath
    have hgeo : IsName "geo" := by decide
    exact fun c hc => .inl (hgeo c hc)
  exact ⟨distinct, hgrid, hname, hspace,
    (session.classType_spellings_iff bench distinct hgrid hname hspace (some [.integer 3])).1.2
      fun _ h => absurd h (Option.some_ne_none _)⟩

open Grids in
/-- Without arguments it is not: behind its namespace the template is registered, or this fails. -/
theorem not_classType_spellings_grid :
    exec (session.classType "Grid" none) bench =
      (.ok (.type ⟨"geo::Grid", "Grid"⟩), bench) ∧
    exec (session.classType "geo::Grid" none) bench ≠
      (.ok (.type ⟨"geo::Grid", "Grid"⟩), bench) := by
  refine ⟨rfl, ?_⟩
  have hregistered : session.classType "geo::Grid" none =
      session.registeredType "geo::Grid" "Grid" := rfl
  rw [hregistered, Ne, exec_registeredType_iff]
  rintro ⟨d, hd⟩
  have hnone : bench.cache.class? (Spelling.normalize "geo::Grid") = none := rfl
  exact absurd (hd.symm.trans hnone) (Option.some_ne_none d)

end Session
end Bindery
