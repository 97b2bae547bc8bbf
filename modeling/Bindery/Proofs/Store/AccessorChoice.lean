/-
# Which accessor serves a class

The registration of a class reads and writes fields through the accessor of a reflected class, or it
knows no field. Which of these it is shows in its headers and in the bodies of two functions:

| unit | last header | reading and writing |
| --- | --- | --- |
| `Unit.ReachesFields class_` | the header of `class_` | by the accessor template of `class_` |
| `Unit.KnowsNoField` | no header of a class | every field is unknown, `return -1;` |

Whether there is an accessor is decided by the qualified name in a spelling: its normal form without
groups and without leading `::` (`Spelling.pathName`). Which accessor it is, is told by the bare
name of the spelling. The two agree: with a catalog of classes that are named by identifiers, what
is compiled reaches fields through an accessor if and only if the qualified name is that of a class,
and then through the accessor of this class (`Cache.accessor_chosen`).
-/

import Bindery.Proofs.Session.Guards
import Bindery.Proofs.Session.TypeObjects
import Bindery.Proofs.Store.Provenance

namespace Bindery

/-! ### The qualified name in a spelling -/

namespace Spelling

open Text

/-- The qualified name in a spelling: its normal form without groups and without leading `::`. -/
def pathName (name : String) : String :=
  String.ofList (Cache.withoutGlobal (outline (normalize name)).toList)

/-- What is left of a text when its groups are taken out, if it closes the groups that it opens. -/
inductive GroupsOut : List Char → List Char → Prop
  | nil : GroupsOut [] []
  | keep {c : Char} {cs ds : List Char} (hc : c ∉ ['<', '>', '(', ')']) (h : GroupsOut cs ds) :
    GroupsOut (c :: cs) (c :: ds)
  | angle {inner cs ds : List Char} (hinner : Balanced inner) (h : GroupsOut cs ds) :
    GroupsOut ('<' :: (inner ++ '>' :: cs)) ds
  | paren {inner cs ds : List Char} (hinner : Balanced inner) (h : GroupsOut cs ds) :
    GroupsOut ('(' :: (inner ++ ')' :: cs)) ds

/-- Every leading `::` is dropped. -/
theorem withoutGlobal_append {cs : List Char} (h : ¬ scope <+: cs) (n : Nat) :
    Cache.withoutGlobal ((List.replicate n scope).flatten ++ cs) = cs := by
  induction n with
  | zero =>
    show Cache.withoutGlobal cs = cs
    unfold Cache.withoutGlobal
    split
    · rename_i r
      exact absurd (List.prefix_append scope r) h
    · rfl
  | succ n ih =>
    rw [List.replicate_succ, List.flatten_cons, List.append_assoc]
    exact ih

/-- **The qualified name is what is left when the groups are taken out** of a normal form and every
leading `::` is dropped. -/
theorem GroupsOut.pathName_eq {name path : String} {ds : List Char} {n : Nat}
    (h : GroupsOut (normalize name).toList ds)
    (hds : ds = (List.replicate n [':', ':']).flatten ++ path.toList)
    (hpath : ¬ [':', ':'] <+: path.toList) : pathName name = path := by
  have houtside : ∀ {cs ds}, GroupsOut cs ds → outside 0 cs = ds := by
    intro cs ds h
    induction h with
    | nil => rfl
    | @keep c cs ds hc _ ih =>
      have hgroup : isGroup c = false := by
        simp only [List.mem_cons, List.not_mem_nil, or_false, not_or] at hc
        simp [isGroup, hc]
      rw [outside, hgroup, ih]
      rfl
    | angle hinner _ ih =>
      show outside 1 _ = _
      rw [outside_of_balanced hinner, ← ih]
      rfl
    | paren hinner _ ih =>
      show outside 1 _ = _
      rw [outside_of_balanced hinner, ← ih]
      rfl
  have hdrop : Cache.withoutGlobal ((List.replicate n [':', ':']).flatten ++ path.toList) =
      path.toList := withoutGlobal_append hpath n
  rw [pathName, outline, String.toList_ofList, houtside h, hds, hdrop, String.ofList_toList]

/-- A character outside of groups that is no punctuation is kept. -/
theorem outside_cons_of_not_punct {c : Char} (h : isPunct c = false) (depth : Nat) (r : List Char) :
    outside depth (c :: r) = if depth = 0 then c :: outside 0 r else outside depth r := by
  have hgroup : isGroup c = false := Bool.eq_false_iff.2 fun hgroup =>
    Bool.false_ne_true (h.symm.trans (isPunct_of_isGroup hgroup))
  have hnest : nest depth c = depth := by
    simp only [isGroup, Bool.or_eq_false_iff, beq_eq_false_iff_ne] at hgroup
    simp [nest, hgroup]
  rw [outside, hgroup, hnest]
  by_cases hdepth : depth = 0
  · rw [if_pos hdepth, if_pos (by simp [hdepth]), hdepth]
  · rw [if_neg hdepth, if_neg (by simp [hdepth])]

/-- A character is kept, or what follows it is read inside of a group or behind a bracket. -/
theorem outside_cons_cases (depth : Nat) (c : Char) (r : List Char) :
    outside depth (c :: r) = c :: outside depth r ∨
      ∃ depth', (depth' = 0 → isPunct c = true) ∧ outside depth (c :: r) = outside depth' r := by
  cases hpunct : isPunct c with
  | true =>
    rw [outside]
    split
    · exact .inl rfl
    · exact .inr ⟨_, fun _ => rfl, rfl⟩
  | false =>
    rw [outside_cons_of_not_punct hpunct]
    split
    · rename_i hdepth
      rw [hdepth]
      exact .inl rfl
    · rename_i hdepth
      exact .inr ⟨depth, fun h => absurd h hdepth, rfl⟩

/-- No blank stands at the ends of what is outside of groups in a normal form. -/
structure TrimmedOutside (cs : List Char) (depth : Nat) (last : Option Char) : Prop where
  /-- In front this is so unless a space may be written there, that is, between two words. -/
  head : (depth = 0 → inWord last = false) → ∀ c ∈ (outside depth cs).head?, isBlank c = false
  last : ∀ c ∈ (outside depth cs).getLast?, isBlank c = false

theorem getLast?_cons_visible {d : Char} {cs : List Char} (hd : isBlank d = false)
    (hcs : ∀ c ∈ cs.getLast?, isBlank c = false) :
    ∀ c ∈ (d :: cs).getLast?, isBlank c = false := by
  intro c hc
  rw [List.getLast?_cons] at hc
  obtain rfl := Option.some.inj hc
  cases h : cs.getLast? with
  | none => exact hd
  | some e => exact hcs e h

/-- A character that is no blank may stand in front. -/
theorem TrimmedOutside.cons {d : Char} {cs : List Char} (hd : isBlank d = false)
    (h : ∀ depth, TrimmedOutside cs depth (some d)) (depth : Nat) (last : Option Char) :
    TrimmedOutside (d :: cs) depth last := by
  rcases outside_cons_cases depth d cs with hkept | ⟨depth', hpunct, hpassed⟩
  · constructor <;> rw [hkept]
    · rintro - c hc
      obtain rfl := Option.some.inj hc
      exact hd
    · exact getLast?_cons_visible hd (h depth).last
  · constructor <;> rw [hpassed]
    · exact fun _ => (h depth').head fun hzero => by simp [inWord, hpunct hzero]
    · exact (h depth').last

/-- Induction on the text. A space is written between two words only, and these stand outside of
groups if the space does. -/
theorem trimmedOutside_squeeze (cs : List Char) (depth : Nat) (last : Option Char) (gap : Bool) :
    TrimmedOutside (squeeze last gap cs) depth last := by
  induction cs generalizing depth last gap with
  | nil => exact ⟨fun _ => nofun, nofun⟩
  | cons d r ih =>
    by_cases hblank : isBlank d = true
    · rw [squeeze_blank hblank]
      exact ih depth last true
    · have hword := TrimmedOutside.cons (Bool.eq_false_iff.2 hblank) fun depth =>
        ih depth (some d) false
      rw [squeeze_cons hblank]
      split
      · rename_i hspace
        simp only [Bool.and_eq_true, Bool.not_eq_true'] at hspace
        obtain ⟨⟨-, hlast⟩, hpunct⟩ := hspace
        have hkept := outside_cons_of_not_punct (c := ' ') rfl depth
          (d :: squeeze (some d) false r)
        show TrimmedOutside (' ' :: d :: squeeze (some d) false r) depth last
        by_cases hdepth : depth = 0
        · rw [if_pos hdepth, outside_cons_of_not_punct hpunct, if_pos rfl] at hkept
          constructor <;> rw [hkept]
          · exact fun hnone => absurd (hlast.symm.trans (hnone hdepth)) nofun
          · have hend := (hword 0 none).last
            rw [outside_cons_of_not_punct hpunct, if_pos rfl] at hend
            rwa [List.getLast?_cons_cons]
        · rw [if_neg hdepth] at hkept
          constructor <;> rw [hkept]
          · exact fun _ => (hword depth none).head fun _ => rfl
          · exact (hword depth none).last
      · exact hword depth last

/-- There is nothing to trim at the outline of a normal form. -/
theorem trim_outline_normalize (name : String) :
    trim (outline (normalize name)).toList = (outline (normalize name)).toList := by
  rw [outline, normalize, String.toList_ofList, String.toList_ofList]
  have hends := trimmedOutside_squeeze name.toList 0 none false
  exact trim_eq_self (hends.head fun _ => rfl) hends.last

/-- A text is what is left of it behind as many `::` as were dropped. -/
theorem exists_withoutGlobal (cs : List Char) :
    ∃ n, cs = (List.replicate n scope).flatten ++ Cache.withoutGlobal cs := by
  fun_induction Cache.withoutGlobal cs with
  | case1 r ih =>
    obtain ⟨n, hn⟩ := ih
    refine ⟨n + 1, ?_⟩
    rw [List.replicate_succ, List.flatten_cons, List.append_assoc, ← hn]
    rfl
  | case2 => exact ⟨0, rfl⟩

/-- A qualified name is the name, perhaps behind a `::`. -/
theorem toList_qualify_cases (space : Option String) (name : String) :
    (qualify space name).toList = name.toList ∨
      ∃ before, (qualify space name).toList = before ++ (scope ++ name.toList) := by
  unfold qualify
  split
  · rename_i ns
    split
    · exact .inl rfl
    · refine .inr ⟨ns.toList, ?_⟩
      rw [String.toList_append, String.toList_append, List.append_assoc]
      rfl
  · exact .inl rfl

/-- **The bare name of a spelling** is the name of the class whose qualified name is spelled. -/
theorem bare_of_pathName {space : Option String} {class_ name : String} (hclass : IsName class_)
    (hspace : ∀ path ∈ space, IsPath path) (h : pathName name = qualify space class_) :
    bare (normalize name) = class_ := by
  obtain ⟨n, houtline⟩ := exists_withoutGlobal (outline (normalize name)).toList
  rw [show Cache.withoutGlobal _ = (qualify space class_).toList by
    rw [← h, pathName, String.toList_ofList]] at houtline
  have hpath : ∀ c ∈ (outline (normalize name)).toList, Header.isWordChar c = true ∨ c = ':' := by
    intro c hc
    rw [houtline, List.mem_append] at hc
    rcases hc with hc | hc
    · obtain ⟨t, ht, hmem⟩ := List.mem_flatten.1 hc
      rw [List.eq_of_mem_replicate ht] at hmem
      exact .inr (by simpa [scope] using hmem)
    · exact Keyed.isPath_qualify hclass hspace c hc
  have hlast : lastSegment (outline (normalize name)).toList = class_.toList := by
    have hcolon := colon_notMem_of_isName hclass
    rw [houtline]
    rcases toList_qualify_cases space class_ with hplain | ⟨before, hbehind⟩
    · rw [hplain]
      cases n with
      | zero => exact afterScope_of_not_mem hcolon _
      | succ n =>
        rw [List.replicate_succ', List.flatten_append, List.flatten_singleton, List.append_assoc,
          lastSegment_append_scope hcolon]
    · rw [hbehind, ← List.append_assoc, lastSegment_append_scope hcolon]
  rw [← bare_outline, bare, bareChars_of_path hpath, hlast, trim_of_isName hclass,
    String.ofList_toList]

end Spelling

/-! ### The two units -/

namespace Source

/-- The body of a function of a unit. -/
def Unit.body? (u : Unit) (name : String) : Option (List Stmt) :=
  u.items.findSome? fun
    | .function f => if f.name = name then some f.body else none
    | _ => none

/-- `return bind::guard([&] { return bind_class_C<T>::method(self, field, last); });`, where `C` is
the class and `T` the qualified name. -/
def guardedAccess (class_ qualified method last : String) : Stmt :=
  .ret (some (.call (.ident "bind::guard")
    [.lambda (.call (.ident ("bind_class_" ++ class_ ++ "<" ++ qualified ++ ">::" ++ method))
      [.ident "self", .ident "field", .ident last])]))

/-- A unit includes the accessor header of a class, behind the headers that it includes anyway, and
forwards reading and writing a field to its accessor template. -/
structure Unit.ReachesFields (u : Unit) (includes : List String) (hash qualified class_ : String) :
    Prop where
  headers : u.headers = .own "bind_abi.hpp" :: includes.map .own ++ [.own (class_ ++ ".hpp")]
  get : u.body? (hash ++ "_get") = some [guardedAccess class_ qualified "get" "out"]
  set : u.body? (hash ++ "_set") = some [guardedAccess class_ qualified "set" "value"]

/-- A unit includes no accessor header, and reports every field as unknown: both functions are
`return -1;`. -/
structure Unit.KnowsNoField (u : Unit) (includes : List String) (hash : String) : Prop where
  headers : u.headers = .own "bind_abi.hpp" :: includes.map .own
  get : u.body? (hash ++ "_get") = some [.ret (some (.int (-1)))]
  set : u.body? (hash ++ "_set") = some [.ret (some (.int (-1)))]

variable {hash qualified class_ : String} {includes : List String}

theorem headers_classUnit (accessor : Option String) :
    (classUnit hash qualified accessor includes).headers =
      .own "bind_abi.hpp" :: includes.map .own ++
        accessor.toList.map fun c => .own (c ++ ".hpp") := rfl

/-- The symbols of a class are told apart by their ends. -/
theorem symbol_ne {ending other : String} (h : ending ≠ other) (hash : String) :
    hash ++ ending ≠ hash ++ other := fun heq => h (by simpa using heq)

theorem get_classUnit (accessor : Option String) :
    (classUnit hash qualified accessor includes).body? (getSymbol hash) =
      some (forward accessor qualified "get" "out") := by
  have hdrop : dropSymbol hash ≠ getSymbol hash := symbol_ne (by decide) hash
  have htype : cppTypeSymbol hash ≠ getSymbol hash := symbol_ne (by decide) hash
  simp [classUnit, Unit.body?, hdrop, htype]

theorem set_classUnit (accessor : Option String) :
    (classUnit hash qualified accessor includes).body? (setSymbol hash) =
      some (forward accessor qualified "set" "value") := by
  have hdrop : dropSymbol hash ≠ setSymbol hash := symbol_ne (by decide) hash
  have htype : cppTypeSymbol hash ≠ setSymbol hash := symbol_ne (by decide) hash
  have hget : getSymbol hash ≠ setSymbol hash := symbol_ne (by decide) hash
  simp [classUnit, Unit.body?, hdrop, htype, hget]

/-- The registration of a class reaches fields through the accessor that it is given. -/
theorem reachesFields_classUnit_iff {accessor : Option String} :
    (classUnit hash qualified accessor includes).ReachesFields includes hash qualified class_ ↔
      accessor = some class_ := by
  constructor
  · rintro ⟨hheaders, -, -⟩
    rw [headers_classUnit, List.append_right_inj] at hheaders
    cases accessor with
    | none => exact absurd hheaders nofun
    | some other =>
      have hfile : other ++ ".hpp" = class_ ++ ".hpp" := by simpa using hheaders
      rw [String.append_left_inj] at hfile
      rw [hfile]
  · rintro rfl
    exact ⟨headers_classUnit _, get_classUnit _, set_classUnit _⟩

/-- Without an accessor the registration of a class knows no field. -/
theorem knowsNoField_classUnit_iff {accessor : Option String} :
    (classUnit hash qualified accessor includes).KnowsNoField includes hash ↔ accessor = none := by
  constructor
  · rintro ⟨hheaders, -, -⟩
    rw [headers_classUnit, List.append_right_eq_self] at hheaders
    cases accessor with
    | none => rfl
    | some other => exact absurd hheaders nofun
  · rintro rfl
    refine ⟨?_, get_classUnit _, set_classUnit _⟩
    rw [headers_classUnit]
    exact List.append_nil _

end Source

/-! ### The choice -/

namespace Cache

variable {σ L α : Type}

theorem accessor?_normalize (context : Context) (name : String) :
    accessor? context (Spelling.normalize name) =
      if Spelling.pathName name ∈ context.reflected then
        some (Spelling.bare (Spelling.normalize name))
      else none := by
  rw [accessor?, Spelling.trim_outline_normalize]
  rfl

theorem accessor?_eq_none_iff {m : Catalog} {name : String} :
    accessor? (.ofCatalog m) (Spelling.normalize name) = none ↔
      ∀ c ∈ m.classes, c.qualifiedName ≠ Spelling.pathName name := by
  rw [accessor?_normalize, ite_eq_right_iff]
  simp only [reduceCtorEq, imp_false, Context.ofCatalog, List.mem_map, not_exists, not_and, ne_eq]

/-- **Which accessor serves a spelling:** that of the class whose qualified name is spelled. -/
theorem accessor?_eq_some_iff {m : Catalog}
    (hnames : ∀ c ∈ m.classes, IsName c.name ∧ ∀ path ∈ c.space, IsPath path)
    {name class_ : String} :
    accessor? (.ofCatalog m) (Spelling.normalize name) = some class_ ↔
      ∃ c ∈ m.classes, c.qualifiedName = Spelling.pathName name ∧ c.name = class_ := by
  have hbare : ∀ c ∈ m.classes, c.qualifiedName = Spelling.pathName name →
      Spelling.bare (Spelling.normalize name) = c.name := fun c hc hpath =>
    Spelling.bare_of_pathName (hnames c hc).1 (hnames c hc).2 hpath.symm
  constructor
  · intro h
    obtain ⟨c, hc, hpath⟩ : ∃ c ∈ m.classes, c.qualifiedName = Spelling.pathName name := by
      by_contra hnone
      have habsent := accessor?_eq_none_iff.2 fun c hc hpath => hnone ⟨c, hc, hpath⟩
      exact absurd (h.symm.trans habsent) (Option.some_ne_none class_)
    rw [accessor?_normalize, hbare c hc hpath] at h
    split at h
    · exact ⟨c, hc, hpath, Option.some.inj h⟩
    · exact absurd h.symm (Option.some_ne_none class_)
  · rintro ⟨c, hc, hpath, rfl⟩
    have hreflected : Spelling.pathName name ∈ (Context.ofCatalog m).reflected :=
      List.mem_map.2 ⟨c, hc, hpath⟩
    rw [accessor?_normalize, if_pos hreflected, hbare c hc hpath]

/-! ### What is compiled -/

theorem Unusable.unique {path : String} {load : String → Load σ L α} {w w₁ w₂ : World σ L}
    (h : Unusable path load w w₁) (h' : Unusable path load w w₂) : w₁ = w₂ := by
  cases h with
  | absent habsent =>
    cases h' with
    | absent => rfl
    | refused hfile => exact absurd (habsent.symm.trans hfile) Bool.false_ne_true
  | refused hfile hload =>
    cases h' with
    | absent habsent => exact absurd (habsent.symm.trans hfile) Bool.false_ne_true
    | refused _ hload' => exact congrArg Prod.snd (hload.symm.trans hload')

/-- An attempt compiles the unit if nothing usable lies on disk and the unit can be written. Either
the compiler fails, or the attempt ends with what comes of loading what it made. -/
theorem Attempt.result_of_unusable {p : Platform σ L} {c : Cache L} {stem : String}
    {load : String → Load σ L α} {unit : Source.Unit} {r : Except CacheError α} {s : Stats}
    {w₀ w w' : World σ L} {files : Files L} (h : Attempt p c stem load (.ok unit) w₀ r s w')
    (hdisk : Unusable (c.artifactPath stem) load w₀ w)
    (hwrite : w.files.replace (c.sourcePath stem) (Text.encode unit.text) = .ok files) :
    (∃ e nanos, p.compile (c.job stem) { w with files } = (⟨.error e, nanos⟩, w') ∧
      r = .error (.build e)) ∨
    ∃ path nanos w'', p.compile (c.job stem) { w with files } = (⟨.ok path, nanos⟩, w'') ∧
      r = (exec (load path) w'').1.mapError .load := by
  have hworld : c.written stem unit w = { w with files } := by
    rw [written, Files.save_of_replace hwrite]
  cases h with
  | disk hfile hload =>
    exfalso
    cases hdisk with
    | absent habsent => exact Bool.false_ne_true (habsent.symm.trans hfile)
    | refused _ hrefused => exact ok_ne_error (hload.symm.trans hrefused)
  | unemitted _ hemit => cases hemit
  | unwritten hdisk' hemit hfails =>
    obtain rfl := Except.ok.inj hemit
    rw [hdisk'.unique hdisk] at hfails
    cases hwrite.symm.trans hfails
  | uncompiled hdisk' hemit _ hcompile =>
    obtain rfl := Except.ok.inj hemit
    rw [hdisk'.unique hdisk, hworld] at hcompile
    exact .inl ⟨_, _, hcompile, rfl⟩
  | compiled hdisk' hemit _ hcompile hload =>
    obtain rfl := Except.ok.inj hemit
    rw [hdisk'.unique hdisk, hworld] at hcompile
    exact .inr ⟨_, _, _, hcompile, by rw [hload]⟩

/-- The library of a class comes from a unit. Its text is what the compiler finds in the source
file, and the answer is what the compiler complains about if it fails, and else what comes of
loading what it made. -/
structure ComesFrom (unit : Source.Unit) (p : Platform σ L) (name : String) (b : Bench σ L)
    (w : World σ L) (files : Files L) : Prop where
  source : files.read? (b.cache.job (classHash name)).source = some (Text.encode unit.text)
  answer :
    (∃ e nanos w', p.compile (b.cache.job (classHash name)) { w with files } =
        (⟨.error e, nanos⟩, w') ∧
      (exec (ensureClass p name) b).1 = .error (.build e)) ∨
    ∃ path nanos w', p.compile (b.cache.job (classHash name)) { w with files } =
        (⟨.ok path, nanos⟩, w') ∧
      (exec (ensureClass p name) b).1 =
        (exec (Load.binding p (Spelling.normalize name) (classHash name) path) w').1.mapError .load

/-- A class that is neither known nor on disk comes from its registration. -/
theorem comesFrom_registration {p : Platform σ L} {name : String} {b : Bench σ L} {w : World σ L}
    {files : Files L} (hmemory : b.cache.class? (Spelling.normalize name) = none)
    (hdisk : Unusable (b.cache.artifactPath (classHash name))
      (Load.binding p (Spelling.normalize name) (classHash name)) b.world w)
    (hwrite : w.files.replace (b.cache.sourcePath (classHash name))
      (Text.encode (registration b.cache.context (Spelling.normalize name)).text) = .ok files) :
    ComesFrom (registration b.cache.context (Spelling.normalize name)) p name b w files := by
  refine ⟨Files.read?_of_replace hwrite, ?_⟩
  have step := registering_exec p name b
  generalize (exec (ensureClass p name) b).1 = r, (exec (ensureClass p name) b).2 = b' at step ⊢
  cases step with
  | known hknown => exact absurd (hmemory.symm.trans hknown) nofun
  | failed _ attempt =>
    rcases attempt.result_of_unusable hdisk hwrite with ⟨e, nanos, h⟩ | h
    · exact .inl ⟨e, nanos, _, h⟩
    · exact .inr h
  | new _ attempt =>
    rcases attempt.result_of_unusable hdisk hwrite with ⟨e, nanos, h⟩ | h
    · exact .inl ⟨e, nanos, _, h⟩
    · exact .inr h

/-- **The accessor of a class is chosen by its qualified name,** which is what is left of a normal
form without its groups and without leading `::`. In the context of a catalog of classes that are
named by identifiers, what is compiled for a spelling reaches fields through the accessor of the
class whose qualified name is spelled, and knows no field if there is none. -/
theorem accessor_chosen {m : Catalog}
    (hnames : ∀ c ∈ m.classes, IsName c.name ∧ ∀ path ∈ c.space, IsPath path)
    {p : Platform σ L} {b : Bench σ L} (hcontext : b.cache.context = .ofCatalog m) {name : String}
    (hmemory : b.cache.class? (Spelling.normalize name) = none) {w : World σ L}
    (hdisk : Unusable (b.cache.artifactPath (classHash name))
      (Load.binding p (Spelling.normalize name) (classHash name)) b.world w) :
    (∀ ds n (path : String), Spelling.GroupsOut (Spelling.normalize name).toList ds →
      ds = (List.replicate n [':', ':']).flatten ++ path.toList → ¬ [':', ':'] <+: path.toList →
      Spelling.pathName name = path) ∧
    ∃ unit : Source.Unit,
      (∀ files, w.files.replace (b.cache.sourcePath (classHash name)) (Text.encode unit.text) =
        .ok files → ComesFrom unit p name b w files) ∧
      (∀ class_, unit.ReachesFields m.includes (classHash name) (Spelling.normalize name) class_ ↔
        ∃ c ∈ m.classes, c.qualifiedName = Spelling.pathName name ∧ c.name = class_) ∧
      (unit.KnowsNoField m.includes (classHash name) ↔
        ∀ c ∈ m.classes, c.qualifiedName ≠ Spelling.pathName name) := by
  refine ⟨fun ds n path hout => hout.pathName_eq,
    registration b.cache.context (Spelling.normalize name),
    fun files hwrite => comesFrom_registration hmemory hdisk hwrite, fun class_ => ?_, ?_⟩
  · rw [hcontext, ← accessor?_eq_some_iff hnames]
    exact Source.reachesFields_classUnit_iff
  · rw [hcontext, ← accessor?_eq_none_iff]
    exact Source.knowsNoField_classUnit_iff

namespace EquallyNamed

/-- Two classes of one name in two namespaces. -/
def catalog : Catalog where
  includes := ["geo.hpp"]
  flags := []
  classes :=
    [⟨"Grid", some "alg", true, none, none, []⟩, ⟨"Grid", some "geo", true, none, none, []⟩]
  enums := []
  functions := []

/-- A bench at which nothing was done yet. -/
def bench : Bench Script.Stage String :=
  ⟨{ dir := "/build", context := .ofCatalog catalog }, ⟨{}, {}, 0⟩⟩

end EquallyNamed

open EquallyNamed in
/-- The hypotheses of `accessor_chosen` are satisfiable: a template is spelled behind `::`, with
arguments and blanks. -/
theorem accessor_chosen_grid :
    (∀ c ∈ catalog.classes, IsName c.name ∧ ∀ path ∈ c.space, IsPath path) ∧
      bench.cache.context = .ofCatalog catalog ∧
      bench.cache.class? (Spelling.normalize ":: geo::Grid< F(2), 3 >") = none ∧
      Unusable (bench.cache.artifactPath (classHash ":: geo::Grid< F(2), 3 >"))
        (Load.binding (Script.platform {}) (Spelling.normalize ":: geo::Grid< F(2), 3 >")
          (classHash ":: geo::Grid< F(2), 3 >")) bench.world bench.world ∧
      Spelling.pathName ":: geo::Grid< F(2), 3 >" = "geo::Grid" ∧
      ∃ unit : Source.Unit, unit.ReachesFields ["geo.hpp"] (classHash ":: geo::Grid< F(2), 3 >")
        (Spelling.normalize ":: geo::Grid< F(2), 3 >") "Grid" := by
  have hnames : ∀ c ∈ catalog.classes, IsName c.name ∧ ∀ path ∈ c.space, IsPath path := by
    have hgrid : IsName "Grid" := by decide
    have halg : IsName "alg" := by decide
    have hgeo : IsName "geo" := by decide
    intro c hc
    simp only [catalog, List.mem_cons, List.not_mem_nil, or_false] at hc
    rcases hc with rfl | rfl <;> refine ⟨hgrid, fun path hpath => ?_⟩ <;>
      obtain rfl := Option.some.inj hpath
    · exact fun c hc => .inl (halg c hc)
    · exact fun c hc => .inl (hgeo c hc)
  have hdisk : Unusable (bench.cache.artifactPath (classHash ":: geo::Grid< F(2), 3 >"))
      (Load.binding (Script.platform {}) (Spelling.normalize ":: geo::Grid< F(2), 3 >")
        (classHash ":: geo::Grid< F(2), 3 >")) bench.world bench.world := .absent rfl
  have hpath : Spelling.pathName ":: geo::Grid< F(2), 3 >" = "geo::Grid" := by decide +kernel
  refine ⟨hnames, rfl, rfl, hdisk, hpath, ?_⟩
  obtain ⟨-, unit, -, hreaches, -⟩ := accessor_chosen hnames (b := bench) rfl rfl hdisk
  refine ⟨unit, (hreaches "Grid").2 ⟨⟨"Grid", some "geo", true, none, none, []⟩, ?_, ?_, rfl⟩⟩
  · exact List.mem_cons_of_mem _ (List.mem_singleton_self _)
  · rw [hpath]
    rfl

end Cache
end Bindery
