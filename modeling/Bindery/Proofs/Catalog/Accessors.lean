/-
# Accessor headers and fields of the catalog

What a field of a class is, is said twice. The accessor header of a class has a branch for every
visible field, and the catalog has the first member of a name along the lineage. Where all parents
are plain names, both walk along the same classes (`Catalog.lineage_ofReflection`), but they look
for different things:

| first of its name along the line | header | catalog |
| --- | --- | --- |
| a field | that field | that field |
| another member, no field behind it | nothing | the other member |
| another member, a field behind it (`Reflection.Hides`) | the field | the other member |

So both agree on a name if and only if no method and no alias hides a field of that name
(`Reflection.accessorsAgree_iff`).
-/

import Bindery.Header.Reader
import Bindery.Proofs.Catalog.Walks
import Bindery.Proofs.Lookup
import Bindery.Source.Registration
import Mathlib.Data.List.TakeWhile

namespace Bindery

/-! ### Branches of an accessor header -/

namespace Source

/-- The statements of the functions of a name in the structures of a unit. -/
def Unit.statements (u : Unit) (function : String) : List Stmt :=
  u.items.flatMap fun
    | .struct s => (s.functions.filter (·.name == function)).flatMap (·.body)
    | _ => []

/-- A function of a unit has a branch for a field. -/
def Unit.HasBranch (u : Unit) (function field : String) : Prop :=
  ∃ body, .cond (fieldTest field) body ∈ u.statements function

theorem fieldTest_injective {name other : String} (h : fieldTest name = fieldTest other) :
    name = other := by
  simpa [fieldTest] using h

theorem statements_get (class_ : String) (fields : List FieldInfo) (includes : List String) :
    (classHeader class_ fields includes).statements "get" =
      bindObject :: fields.map getBranch ++ [unknownField] := by
  simp [Unit.statements, classHeader, accessor]

theorem statements_set (class_ : String) (fields : List FieldInfo) (includes : List String) :
    (classHeader class_ fields includes).statements "set" =
      bindObject :: fields.filterMap setBranch? ++ [unknownField] := by
  simp [Unit.statements, classHeader, accessor]

theorem hasBranch_get {class_ name : String} {fields : List FieldInfo} {includes : List String} :
    (classHeader class_ fields includes).HasBranch "get" name ↔ ∃ f ∈ fields, f.name = name := by
  rw [Unit.HasBranch, statements_get]
  constructor
  · rintro ⟨body, h⟩
    simp only [List.cons_append, List.mem_cons, List.mem_append, List.mem_map, List.not_mem_nil,
      or_false] at h
    rcases h with h | ⟨f, hf, h⟩ | h
    · exact absurd h nofun
    · exact ⟨f, hf, fieldTest_injective (Stmt.cond.inj h).1⟩
    · exact absurd h nofun
  · rintro ⟨f, hf, rfl⟩
    exact ⟨_, List.mem_cons_of_mem _ (List.mem_append_left _ (List.mem_map_of_mem hf))⟩

theorem hasBranch_set {class_ name : String} {fields : List FieldInfo} {includes : List String} :
    (classHeader class_ fields includes).HasBranch "set" name ↔
      ∃ f ∈ fields, f.name = name ∧ f.readOnly = false := by
  rw [Unit.HasBranch, statements_set]
  constructor
  · rintro ⟨body, h⟩
    simp only [List.cons_append, List.mem_cons, List.mem_append, List.mem_filterMap,
      List.not_mem_nil, or_false] at h
    rcases h with h | ⟨f, hf, h⟩ | h
    · exact absurd h nofun
    · unfold setBranch? at h
      split at h
      · exact absurd h nofun
      · rename_i hwritable
        have hname := fieldTest_injective (Stmt.cond.inj (Option.some.inj h)).1
        exact ⟨f, hf, hname, by simpa using hwritable⟩
    · exact absurd h nofun
  · rintro ⟨f, hf, rfl, hwritable⟩
    have hbranch : setBranch? f = some (.cond (fieldTest f.name) _) :=
      if_neg (ne_true_of_eq_false hwritable)
    exact ⟨_, List.mem_cons_of_mem _ (List.mem_append_left _
      (List.mem_filterMap.2 ⟨f, hf, hbranch⟩))⟩

end Source

/-! ### Visible fields -/

namespace Reflection

/-- A class and its plain ancestors, nearest first. -/
def line (r : Reflection) (class_ : String) : List ClassInfo :=
  r.ancestry r.classes.length [] (r.class? class_)

/-- The field of a name in the nearest class that has one. -/
def fieldAlong? (line : List ClassInfo) (name : String) : Option FieldInfo :=
  line.findSome? (·.field? name)

theorem fieldAlong?_cons (c : ClassInfo) (line : List ClassInfo) (name : String) :
    fieldAlong? (c :: line) name = (c.field? name).or (fieldAlong? line name) := by
  unfold fieldAlong?
  rw [List.findSome?_cons]
  cases c.field? name <;> rfl

theorem addFields_cons (fields more : List FieldInfo) (f : FieldInfo) :
    addFields fields (f :: more) =
      addFields (if fields.any (·.name == f.name) then fields else fields ++ [f]) more := rfl

theorem names_addFields {fields : List FieldInfo} (h : (fields.map (·.name)).Nodup)
    (more : List FieldInfo) : ((addFields fields more).map (·.name)).Nodup := by
  induction more generalizing fields with
  | nil => exact h
  | cons f more ih =>
    rw [addFields_cons]
    split
    · exact ih h
    · rename_i hnew
      refine ih ?_
      have hfresh : f.name ∉ fields.map (·.name) := by
        intro hmem
        obtain ⟨g, hg, hname⟩ := List.mem_map.1 hmem
        exact hnew (List.any_eq_true.2 ⟨g, hg, by simpa using hname⟩)
      rw [List.map_append, List.map_singleton]
      refine List.nodup_append.2 ⟨h, by simp, fun a ha b hb hab => hfresh ?_⟩
      rwa [← List.mem_singleton.1 hb, ← hab]

/-- A field that is added later counts only if there was none of its name. -/
theorem find?_addFields (fields more : List FieldInfo) (name : String) :
    (addFields fields more).find? (·.name == name) =
      (fields.find? (·.name == name)).or (more.find? (·.name == name)) := by
  induction more generalizing fields with
  | nil => exact (Option.or_none).symm
  | cons f more ih =>
    rw [addFields_cons, ih, List.find?_cons]
    by_cases hname : f.name = name
    · subst hname
      split
      · rename_i hold
        have hfound : (fields.find? (·.name == f.name)).isSome :=
          List.find?_isSome.2 (List.any_eq_true.1 hold)
        obtain ⟨first, hfirst⟩ := Option.isSome_iff_exists.1 hfound
        simp [hfirst]
      · rw [List.find?_append, List.find?_cons_of_pos (by simp), Option.or_assoc]
        simp
    · have hne : (f.name == name) = false := by simpa using hname
      split
      · rw [hne]
      · rw [List.find?_append, List.find?_cons_of_neg (by simpa using hname), hne]
        simp

theorem names_foldl_addFields (line : List ClassInfo) (fields : List FieldInfo)
    (h : (fields.map (·.name)).Nodup) :
    ((line.foldl (fun fs c => addFields fs c.fields) fields).map (·.name)).Nodup := by
  induction line generalizing fields with
  | nil => exact h
  | cons c line ih => exact ih _ (names_addFields h c.fields)

theorem names_visibleFields (r : Reflection) (class_ : String) :
    ((r.visibleFields class_).map (·.name)).Nodup :=
  names_foldl_addFields (r.line class_) [] List.nodup_nil

theorem find?_foldl_addFields (line : List ClassInfo) (fields : List FieldInfo) (name : String) :
    (line.foldl (fun fs c => addFields fs c.fields) fields).find? (·.name == name) =
      (fields.find? (·.name == name)).or (fieldAlong? line name) := by
  induction line generalizing fields with
  | nil => exact (Option.or_none).symm
  | cons c line ih =>
    rw [List.foldl_cons, ih, find?_addFields, Option.or_assoc, fieldAlong?_cons]
    rfl

/-- The visible field of a name is that of the nearest class that has one. -/
theorem find?_visibleFields (r : Reflection) (class_ name : String) :
    (r.visibleFields class_).find? (·.name == name) = fieldAlong? (r.line class_) name :=
  find?_foldl_addFields (r.line class_) [] name

theorem hasBranch_get_visibleFields {r : Reflection} {includes : List String}
    {class_ name : String} :
    (Source.classHeader class_ (r.visibleFields class_) includes).HasBranch "get" name ↔
      (fieldAlong? (r.line class_) name).isSome := by
  rw [Source.hasBranch_get, ← find?_visibleFields, List.find?_isSome]
  simp

theorem hasBranch_set_visibleFields {r : Reflection} {includes : List String}
    {class_ name : String} :
    (Source.classHeader class_ (r.visibleFields class_) includes).HasBranch "set" name ↔
      (fieldAlong? (r.line class_) name).map (·.readOnly) = some false := by
  rw [Source.hasBranch_set, ← find?_visibleFields, Option.map_eq_some_iff]
  constructor
  · rintro ⟨f, hf, rfl, hwritable⟩
    exact ⟨f, find?_of_nodup (r.names_visibleFields class_) hf, hwritable⟩
  · rintro ⟨f, hfind, hwritable⟩
    exact ⟨f, List.mem_of_find?_eq_some hfind, by simpa using List.find?_some hfind, hwritable⟩

/-! ### The members along a line -/

end Reflection

/-- A class has a method or an alias of a name. -/
def ClassInfo.hasOther (c : ClassInfo) (name : String) : Bool :=
  c.methods.any (·.name == name) || c.aliases.any (·.name == name)

/-- Whether a field may only be read. -/
def Member.readOnly? : Member → Option Bool
  | .field _ readOnly _ => some readOnly
  | _ => none

namespace ClassEntry

/-- The members of a class behind its constructor and its fields. -/
def others (c : ClassInfo) : List Member :=
  c.methods.map (fun m => .method m.name m.doc) ++ c.operators.map .operator ++
    c.aliases.map fun a => .alias a.name a.target

/-- The first member of a name is a field if there is one. -/
theorem find?_members (c : ClassInfo) (name : String) :
    (ofInfo c).members.find? (·.name? == some name) =
      ((c.field? name).map fun f => .field f.name f.readOnly f.doc).or
        ((others c).find? (·.name? == some name)) := by
  have hmembers : (ofInfo c).members = .constructor ::
      (c.fields.map (fun f => Member.field f.name f.readOnly f.doc) ++ others c) := by
    simp [ofInfo, others]
  have hfields : (fun f : FieldInfo => (Member.field f.name f.readOnly f.doc).name? == some name) =
      (·.name == name) := by
    funext f
    simp [Member.name?]
  rw [hmembers, List.find?_cons_of_neg (by simp [Member.name?]), List.find?_append, List.find?_map]
  show Option.or (Option.map _ (c.fields.find? _)) _ = _
  rw [Function.comp_def, hfields, ClassInfo.field?]

theorem isSome_find?_others (c : ClassInfo) (name : String) :
    ((others c).find? (·.name? == some name)).isSome = c.hasOther name := by
  rw [Bool.eq_iff_iff, List.find?_isSome]
  simp [others, ClassInfo.hasOther, Member.name?, or_and_right, exists_or]

theorem readOnly?_find?_others (c : ClassInfo) (name : String) :
    ((others c).find? (·.name? == some name)).bind Member.readOnly? = none := by
  cases h : (others c).find? (·.name? == some name) with
  | none => rfl
  | some member =>
    have hmem := List.mem_of_find?_eq_some h
    simp only [others, List.mem_append, List.mem_map] at hmem
    rcases hmem with (⟨_, -, rfl⟩ | ⟨_, -, rfl⟩) | ⟨_, -, rfl⟩ <;> rfl

end ClassEntry

namespace Reflection

/-- A method or an alias hides the fields of its name: no nearer class and not its own class has
such a field, but a farther class does. -/
def Hides (line : List ClassInfo) (name : String) : Prop :=
  ∃ nearer c farther, line = nearer ++ c :: farther ∧ (∀ d ∈ nearer, d.field? name = none) ∧
    c.field? name = none ∧ c.hasOther name = true ∧ (fieldAlong? farther name).isSome

theorem firstNamed_cons (c : ClassInfo) (line : List ClassInfo) (name : String) :
    Catalog.firstNamed ((c :: line).map .ofInfo) name =
      (((c.field? name).map fun f => Member.field f.name f.readOnly f.doc).or
        ((ClassEntry.others c).find? (·.name? == some name))).or
          (Catalog.firstNamed (line.map .ofInfo) name) := by
  rw [← ClassEntry.find?_members, Catalog.firstNamed, List.map_cons, List.flatMap_cons,
    List.find?_append]
  rfl

/-- Where nothing is hidden, the first member is the first field, if there is one. -/
theorem readOnly?_firstNamed {line : List ClassInfo} {name : String} (h : ¬ Hides line name) :
    (Catalog.firstNamed (line.map .ofInfo) name).bind Member.readOnly? =
      (fieldAlong? line name).map (·.readOnly) := by
  induction line with
  | nil => rfl
  | cons c line ih =>
    rw [firstNamed_cons, fieldAlong?_cons]
    cases hfield : c.field? name with
    | some f => rfl
    | none =>
      rw [Option.map_none, Option.none_or, Option.none_or]
      cases hother : (ClassEntry.others c).find? (·.name? == some name) with
      | some member =>
        have hhas : c.hasOther name = true := by
          rw [← ClassEntry.isSome_find?_others, hother]
          rfl
        have hnone : fieldAlong? line name = none := by
          refine Option.not_isSome_iff_eq_none.1 fun hsome => h ?_
          exact ⟨[], c, line, rfl, nofun, hfield, hhas, hsome⟩
        rw [hnone, Option.some_or, ← hother]
        exact ClassEntry.readOnly?_find?_others c name
      | none =>
        rw [Option.none_or]
        refine ih ?_
        rintro ⟨nearer, d, farther, rfl, hnearer, hrest⟩
        exact h ⟨c :: nearer, d, farther, rfl, List.forall_mem_cons.2 ⟨hfield, hnearer⟩, hrest⟩

/-- What is hidden is a field, but no field comes first. -/
theorem spec_of_hides {line : List ClassInfo} {name : String} (h : Hides line name) :
    (fieldAlong? line name).isSome ∧
      (Catalog.firstNamed (line.map .ofInfo) name).bind Member.readOnly? = none := by
  obtain ⟨nearer, c, farther, rfl, hnearer, hfield, hhas, hsome⟩ := h
  induction nearer with
  | nil =>
    rw [List.nil_append, firstNamed_cons, fieldAlong?_cons, hfield, Option.map_none,
      Option.none_or, Option.none_or]
    refine ⟨hsome, ?_⟩
    rw [← ClassEntry.isSome_find?_others] at hhas
    rw [Option.or_of_isSome hhas]
    exact ClassEntry.readOnly?_find?_others c name
  | cons d nearer ih =>
    obtain ⟨hd, hnearer⟩ := List.forall_mem_cons.1 hnearer
    obtain ⟨hfound, hnone⟩ := ih hnearer
    rw [List.cons_append, firstNamed_cons, fieldAlong?_cons, hd, Option.map_none, Option.none_or,
      Option.none_or]
    refine ⟨hfound, ?_⟩
    cases hother : (ClassEntry.others d).find? (·.name? == some name) with
    | none => exact hnone
    | some member =>
      rw [Option.some_or, ← hother]
      exact ClassEntry.readOnly?_find?_others d name

end Reflection

/-! ### The lineage of a reflected class -/

namespace Catalog

theorem splitAlias?_of_plain {reference : String} (h : '.' ∉ reference.toList) :
    splitAlias? reference = none := by
  have hall : reference.toList.dropWhile (· ≠ '.') = [] := by
    refine List.dropWhile_eq_nil_iff.2 fun c hc => ?_
    have hne : c ≠ '.' := fun heq => h (heq ▸ hc)
    simpa using hne
  rw [splitAlias?, hall]

variable {r : Reflection} {includes flags : List String}

theorem class?_ofReflection (name : String) :
    (ofReflection r includes flags).class? name = (r.class? name).map .ofInfo := by
  rw [class?, ofReflection, List.find?_map]
  rfl

/-- A plain reference is followed to its class at once. -/
theorem followReference_of_plain {m : Catalog} {reference : String}
    (h : '.' ∉ reference.toList) (w : Walk) :
    m.followReference reference w = (m.class? reference, w) := by
  rw [followReference, follow, splitAlias?_of_plain h]

theorem parent?_of_plain {c : ClassInfo} {p : String} (hparent : c.parent = some p)
    (h : '.' ∉ p.toList) : r.parent? c = r.class? p := by
  rw [Reflection.parent?, hparent, Option.bind_some, if_neg (by simpa using h)]

/-- A walk along plain parents meets the same classes in a reflection and in its catalog. -/
theorem chain_ofReflection (hplain : ∀ c ∈ r.classes, ∀ p ∈ c.parent, '.' ∉ p.toList) (n : Nat)
    (seen : List String) (current : Option ClassInfo) (w : Walk)
    (hcurrent : ∀ c ∈ current, c ∈ r.classes) :
    (chain (ofReflection r includes flags).followReference n seen (current.map .ofInfo) w).1 =
      (r.ancestry n seen current).map .ofInfo := by
  induction n generalizing seen current w with
  | zero => cases current <;> rfl
  | succ n ih =>
    cases current with
    | none => rfl
    | some c =>
      have hname : (ClassEntry.ofInfo c).name = c.name := rfl
      rw [Option.map_some, Reflection.ancestry]
      by_cases hold : c.name ∈ seen
      · rw [if_pos hold, chain, hname, if_pos hold]
        rfl
      rw [if_neg hold, List.map_cons]
      cases hparent : c.parent with
      | none =>
        have hend := ih (c.name :: seen) none w fun d hd => absurd hd (Option.not_mem_none d)
        rw [Reflection.parent?, hparent, Option.bind_none, ← hend]
        have hroot : (ClassEntry.ofInfo c).parent = none := hparent
        simp only [chain, hname, if_neg hold, hroot, Option.map_none]
      | some p =>
        have hp := hplain c (hcurrent c rfl) p hparent
        rw [chain_child hold hparent, followReference_of_plain hp, class?_ofReflection,
          parent?_of_plain hparent hp]
        exact congrArg _ (ih _ _ _ fun d hd => List.mem_of_find?_eq_some hd)

/-- **Plain parents lead along the same classes in a reflection and in its catalog.** -/
theorem lineage_ofReflection (hplain : ∀ c ∈ r.classes, ∀ p ∈ c.parent, '.' ∉ p.toList)
    (class_ : String) :
    (ofReflection r includes flags).lineage class_ = (r.line class_).map .ofInfo := by
  have hlength : (ofReflection r includes flags).classes.length = r.classes.length :=
    List.length_map _
  rw [lineage, lineageWith, class?_ofReflection, hlength]
  exact chain_ofReflection hplain _ _ _ _ fun c hc => List.mem_of_find?_eq_some hc

/-- What is known of a first member that is a field. -/
theorem readOnly?_eq_some {line : List ClassEntry} {name : String} {readOnly : Bool} :
    (firstNamed line name).bind Member.readOnly? = some readOnly ↔
      ∃ doc, firstNamed line name = some (.field name readOnly doc) := by
  constructor
  · intro h
    obtain ⟨member, hfirst, hreadOnly⟩ := Option.bind_eq_some_iff.1 h
    have hname : member.name? = some name := by simpa using List.find?_some hfirst
    cases member with
    | field =>
      obtain rfl := Option.some.inj hname
      obtain rfl := Option.some.inj hreadOnly
      exact ⟨_, hfirst⟩
    | constructor | method | operator | «alias» => exact absurd hreadOnly nofun
  · rintro ⟨doc, h⟩
    rw [h]
    rfl

end Catalog

namespace Reflection

/-- The accessor header of a class and the catalog agree on a name: the header reads it if and only
if it is a field, and writes it if and only if it is a field that is not read-only. -/
structure AccessorsAgree (r : Reflection) (includes flags : List String) (class_ name : String) :
    Prop where
  getter : (Source.classHeader class_ (r.visibleFields class_) includes).HasBranch "get" name ↔
    ∃ readOnly doc, (Catalog.ofReflection r includes flags).member? class_ name =
      some (.field name readOnly doc)
  setter : (Source.classHeader class_ (r.visibleFields class_) includes).HasBranch "set" name ↔
    ∃ doc, (Catalog.ofReflection r includes flags).member? class_ name =
      some (.field name false doc)

/-- **The header and the catalog agree on a name if and only if no method and no alias hides a field
of that name,** where no parent is reached through an alias. A parent may be missing, and parents
may lead in a circle. -/
theorem accessorsAgree_iff (r : Reflection) (includes flags : List String) (class_ name : String)
    (hplain : ∀ c ∈ r.classes, ∀ p ∈ c.parent, '.' ∉ p.toList) :
    r.AccessorsAgree includes flags class_ name ↔ ¬ Hides (r.line class_) name := by
  have hmember : ∀ readOnly, (∃ doc, (Catalog.ofReflection r includes flags).member? class_ name =
      some (.field name readOnly doc)) ↔
      (Catalog.firstNamed ((r.line class_).map .ofInfo) name).bind Member.readOnly? =
        some readOnly := by
    intro readOnly
    rw [Catalog.readOnly?_eq_some, Catalog.member?, Catalog.lineage_ofReflection hplain]
  constructor
  · intro agree hides
    obtain ⟨hfield, hnone⟩ := spec_of_hides hides
    obtain ⟨readOnly, h⟩ := agree.getter.1 (hasBranch_get_visibleFields.2 hfield)
    rw [hmember, hnone] at h
    exact absurd h nofun
  · intro hides
    have hfirst := readOnly?_firstNamed hides
    constructor
    · rw [hasBranch_get_visibleFields]
      simp only [hmember, hfirst, ← Option.isSome_iff_exists, Option.isSome_map]
    · rw [hasBranch_set_visibleFields, hmember, hfirst]

/-- A class with a field and one that inherits it beside a method of its own. -/
def inherited : Reflection where
  classes := [
    { name := "Base", space := none, fields := [⟨"id", "int", true, none⟩] },
    { name := "Derived", space := none, parent := some "Base", methods := [⟨"size", [], none⟩] }]

/-- The hypothesis of `accessorsAgree_iff` is satisfiable, and so is what it asks for. -/
theorem accessorsAgree_inherited :
    (∀ c ∈ inherited.classes, ∀ p ∈ c.parent, '.' ∉ p.toList) ∧
      inherited.AccessorsAgree [] [] "Derived" "id" ∧
      ∃ doc, (Catalog.ofReflection inherited [] []).member? "Derived" "id" =
        some (.field "id" true doc) := by
  have hplain : ∀ c ∈ inherited.classes, ∀ p ∈ c.parent, '.' ∉ p.toList := by decide
  have hothers : ∀ c ∈ inherited.line "Derived", c.hasOther "id" = false := by decide
  refine ⟨hplain, (accessorsAgree_iff inherited [] [] "Derived" "id" hplain).2 ?_, none, by decide⟩
  rintro ⟨nearer, c, farther, hline, -, -, hhas, -⟩
  rw [hothers c (hline ▸ List.mem_append_right _ List.mem_cons_self)] at hhas
  exact absurd hhas nofun

/-- A field of a class, and a method of that name in a class that inherits from it. -/
def hidden : Reflection where
  classes := [
    { name := "Base", space := none, fields := [⟨"size", "int", false, none⟩] },
    { name := "Derived", space := none, parent := some "Base", methods := [⟨"size", [], none⟩] }]

/-- The header of a class reads a name that is a method of the class. -/
theorem not_accessorsAgree_hidden :
    (ofHeader (Text.encode
        "struct Base { int size; };\nstruct Derived : Base { int size(); };\n")).toOption =
      some hidden ∧
      (∀ c ∈ hidden.classes, ∀ p ∈ c.parent, '.' ∉ p.toList) ∧
      ¬ hidden.AccessorsAgree [] [] "Derived" "size" := by
  refine ⟨by decide +kernel, by decide, fun agree => ?_⟩
  have hbranch : (Source.classHeader "Derived" (hidden.visibleFields "Derived") []).HasBranch "get"
      "size" := Source.hasBranch_get.2 ⟨⟨"size", "int", false, none⟩, by decide, rfl⟩
  obtain ⟨readOnly, doc, hfield⟩ := agree.getter.1 hbranch
  have hmethod : (Catalog.ofReflection hidden [] []).member? "Derived" "size" =
      some (.method "size" none) := by decide
  rw [hmethod] at hfield
  exact absurd hfield nofun

end Reflection
end Bindery
