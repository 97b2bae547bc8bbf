/-
# A stored catalog is read back

Everything that is stored is a record: an object with its parts in the order of their names, without
those that are missing (`Stored.record`). So one fact is enough for all of them: the parts of a
record are found again, and the missing ones are found missing (`Stored.parts?_record`).

| record | parts that may be missing |
| --- | --- |
| member of a class, behind its kind | `doc` |
| class | `doc` |
| function | `doc` |
| enumeration | none |
| catalog | none |

A namespace or a parent that there is not is stored as null, and read back as none. So a catalog is
read back from its stored form (`catalog?_json`), and from both layouts of its text.
-/

import Bindery.Catalog.Stored
import Bindery.Proofs.Json.RoundTrip

namespace Bindery

namespace Stored

open Json

/-! ### Records -/

/-- The parts that there are, each under its name. -/
def members (names : List String) (parts : List (Option Json)) : List JsonMember :=
  (names.zip parts).filterMap fun (name, part) => part.map (entry name)

/-- An object of the parts that there are. -/
def record (names : List String) (parts : List (Option Json)) : Json :=
  .object (members names parts)

theorem members_cons (name : String) (names : List String) (part : Option Json)
    (parts : List (Option Json)) :
    members (name :: names) (part :: parts) =
      (part.map (entry name)).toList ++ members names parts := by
  cases part <;> rfl

theorem keys_members (names : List String) (parts : List (Option Json)) :
    ((members names parts).map (·.1)).Sublist (names.map some) := by
  induction names generalizing parts with
  | nil => exact List.Sublist.refl _
  | cons name names ih =>
    cases parts with
    | nil => exact List.nil_sublist _
    | cons part parts =>
      rw [members_cons]
      cases part with
      | none => exact (ih parts).cons _
      | some j => exact (ih parts).cons_cons _

/-- A part is found under its name. -/
theorem find?_members {names : List String} {parts : List (Option Json)} (hnames : names.Nodup)
    (hlength : parts.length = names.length) :
    (names.map fun name => ((members names parts).find? (·.1 == some name)).map (·.2)) =
      parts := by
  induction names generalizing parts with
  | nil => exact (List.length_eq_zero_iff.1 hlength).symm
  | cons name names ih =>
    obtain ⟨part, parts, rfl⟩ := List.exists_cons_of_length_eq_add_one hlength
    obtain ⟨hname, hnames⟩ := List.nodup_cons.1 hnames
    have hother : ∀ other ∈ names, (members (name :: names) (part :: parts)).find?
        (·.1 == some other) = (members names parts).find? (·.1 == some other) := by
      intro other hmem
      have hne : name ≠ other := fun heq => hname (heq ▸ hmem)
      rw [members_cons]
      cases part with
      | none => rfl
      | some j => exact List.find?_cons_of_neg (by simpa [entry] using hne)
    have hself : ((members (name :: names) (part :: parts)).find? (·.1 == some name)).map (·.2) =
        part := by
      rw [members_cons]
      cases part with
      | some j =>
        rw [Option.map_some, Option.toList_some, List.singleton_append,
          List.find?_cons_of_pos (by simp [entry])]
        rfl
      | none =>
        have hmissing : (members names parts).find? (·.1 == some name) = none := by
          refine List.find?_eq_none.2 fun m hm heq => hname ?_
          have hkey := (keys_members names parts).subset (List.mem_map_of_mem hm)
          rw [eq_of_beq heq] at hkey
          simpa using hkey
        exact congrArg (Option.map (·.2)) hmissing
    have hothers := List.map_congr_left fun other hmem =>
      congrArg (Option.map (·.2)) (hother other hmem)
    rw [List.map_cons, hself, hothers, ih hnames (Nat.succ.inj hlength)]

/-- **The parts of a record are found again.** -/
theorem parts?_record {names : List String} {parts : List (Option Json)} (hnames : names.Nodup)
    (hlength : parts.length = names.length) :
    parts? names (record names parts) = some parts := by
  have hkeys := keys_members names parts
  have hkey : ∀ m ∈ members names parts, ∃ name ∈ names, m.1 = some name := by
    intro m hm
    obtain ⟨name, hname, heq⟩ := List.mem_map.1 (hkeys.subset (List.mem_map_of_mem hm))
    exact ⟨name, hname, heq.symm⟩
  have hknown : (members names parts).filter (fun m => m.1.any names.contains) =
      members names parts := by
    refine List.filter_eq_self.2 fun m hm => ?_
    obtain ⟨name, hname, heq⟩ := hkey m hm
    simpa [heq] using hname
  have hall : (members names parts).all (·.1.isSome) = true := by
    refine List.all_eq_true.2 fun m hm => ?_
    obtain ⟨name, -, heq⟩ := hkey m hm
    rw [heq]
    rfl
  have hnodup : ((members names parts).map (·.1)).Nodup :=
    hkeys.nodup (List.Pairwise.map some (fun _ _ hne heq => hne (Option.some.inj heq)) hnames)
  simp only [parts?, record, hknown]
  rw [if_pos ⟨hall, hnodup⟩, find?_members hnames hlength]

/-! ### Parts -/

/-- What is read back one by one is read back as a list. -/
theorem mapM_map {α : Type} {write : α → Json} {read : Json → Option α}
    (h : ∀ a, read (write a) = some a) (as : List α) : (as.map write).mapM read = some as := by
  induction as with
  | nil => rfl
  | cons a as ih =>
    rw [List.map_cons, List.mapM_cons, h, ih]
    rfl

theorem strings?_ofStrings (texts : List String) : (ofStrings texts).strings? = some texts := by
  have hone : ∀ text, (ofString text).string? = some text := fun _ => rfl
  exact mapM_map hone texts

theorem optional?_ofOption (named : Bool) (s : Option String) :
    optional? named (some (ofOption s)) = some s := by
  cases s <;> rfl

theorem doc?_map (doc : Option String) : doc? (doc.map ofString) = some doc := by
  cases doc <;> rfl

theorem operator?_key (op : Operator) : operator? (ofString op.key) = some op := by
  cases op <;> rfl

/-! ### Members -/

/-- The stored kind of a member. -/
def kindOf : Member → String
  | .constructor => "constructor"
  | .field .. => "field"
  | .method .. => "method"
  | .operator _ => "operator"
  | .alias .. => "alias"

/-- The other parts of a stored member. -/
def bodyOf : Member → Json
  | .constructor => record [] []
  | .field name readOnly doc => record ["name", "read_only", "doc"]
    [some (ofString name), some (.bool readOnly), doc.map ofString]
  | .method name doc => record ["name", "doc"] [some (ofString name), doc.map ofString]
  | .operator op => record ["op"] [some (ofString op.key)]
  | .alias name target =>
    record ["name", "target"] [some (ofString name), some (ofString target)]

theorem kind?_json (member : Member) :
    kind? member.json = some (kindOf member, bodyOf member) := by
  cases member with
  | constructor | operator | «alias» => rfl
  | field _ _ doc | method _ doc => cases doc <;> rfl

theorem memberOf?_bodyOf (member : Member) :
    memberOf? (kindOf member) (bodyOf member) = some member := by
  cases member with
  | constructor => rfl
  | field name readOnly doc =>
    rw [kindOf, bodyOf, memberOf?, parts?_record (by decide) rfl]
    simp only [Option.bind_eq_bind, Option.bind_some, doc?_map]
    rfl
  | method name doc =>
    rw [kindOf, bodyOf, memberOf?, parts?_record (by decide) rfl]
    simp only [Option.bind_eq_bind, Option.bind_some, doc?_map]
    rfl
  | operator op =>
    rw [kindOf, bodyOf, memberOf?, parts?_record (by decide) rfl]
    simp only [Option.bind_eq_bind, Option.bind_some, operator?_key]
  | «alias» name target =>
    rw [kindOf, bodyOf, memberOf?, parts?_record (by decide) rfl]
    rfl

/-- A stored member nests no deeper than one record, and holds no numbers. -/
theorem member_json_flat (member : Member) :
    (∀ p, member.json.isSound p = true) ∧ member.json.depth = 1 := by
  cases member with
  | constructor | operator | «alias» => exact ⟨fun _ => rfl, rfl⟩
  | field _ _ doc | method _ doc => cases doc <;> exact ⟨fun _ => rfl, rfl⟩

theorem member?_json (member : Member) : member? member.json = some member := by
  obtain ⟨hsound, hdepth⟩ := member_json_flat member
  rw [member?, if_pos ⟨hsound isFinite, by rw [hdepth]; decide⟩, kind?_json]
  exact memberOf?_bodyOf member

/-! ### Classes, functions, enumerations -/

theorem classEntry_json (c : ClassEntry) :
    c.json = record ["name", "namespace", "is_template", "parent", "doc", "members"]
      [some (ofString c.name), some (ofOption c.space), some (.bool c.isTemplate),
        some (ofOption c.parent), c.doc.map ofString,
        some (.array (c.members.map Member.json))] := by
  obtain ⟨_, _, _, _, doc, _⟩ := c
  cases doc <;> rfl

theorem functionEntry_json (f : FunctionEntry) :
    f.json = record ["name", "namespace", "overloads", "doc"]
      [some (ofString f.name), some (ofOption f.space), some (ofStrings f.overloads),
        f.doc.map ofString] := by
  obtain ⟨_, _, _, doc⟩ := f
  cases doc <;> rfl

theorem enumEntry_json (e : EnumEntry) :
    e.json = record ["name", "namespace", "enumerators"]
      [some (ofString e.name), some (ofOption e.space), some (ofStrings e.enumerators)] := rfl

theorem catalog_json (m : Catalog) :
    m.json = record ["includes", "flags", "classes", "functions", "enums"]
      [some (ofStrings m.includes), some (ofStrings m.flags),
        some (.array (m.classes.map ClassEntry.json)),
        some (.array (m.functions.map FunctionEntry.json)),
        some (.array (m.enums.map EnumEntry.json))] := rfl

theorem class?_json (c : ClassEntry) : class? c.json = some c := by
  rw [class?, classEntry_json, parts?_record (by decide) rfl]
  simp only [Option.bind_eq_bind, Option.bind_some, optional?_ofOption, doc?_map, array?,
    mapM_map member?_json]
  rfl

theorem function?_json (f : FunctionEntry) : function? f.json = some f := by
  rw [function?, functionEntry_json, parts?_record (by decide) rfl]
  simp only [Option.bind_eq_bind, Option.bind_some, optional?_ofOption, strings?_ofStrings,
    doc?_map]
  rfl

theorem enum?_json (e : EnumEntry) : enum? e.json = some e := by
  rw [enum?, enumEntry_json, parts?_record (by decide) rfl]
  simp only [Option.bind_eq_bind, Option.bind_some, optional?_ofOption, strings?_ofStrings]
  rfl

/-- **A catalog is read back from its stored form.** -/
theorem catalog?_json (m : Catalog) : catalog? m.json = some m := by
  rw [catalog?, catalog_json, parts?_record (by decide) rfl]
  simp only [Option.bind_eq_bind, Option.bind_some, strings?_ofStrings, array?,
    mapM_map class?_json, mapM_map function?_json, mapM_map enum?_json]

/-! ### Stored texts -/

theorem isSound_record {p : String → Bool} {names : List String} {parts : List (Option Json)}
    (h : ∀ part ∈ parts, ∀ j ∈ part, j.isSound p = true) :
    (record names parts).isSound p = true := by
  show soundMembers p (members names parts) = true
  induction names generalizing parts with
  | nil => rfl
  | cons name names ih =>
    cases parts with
    | nil => rfl
    | cons part parts =>
      obtain ⟨hpart, hparts⟩ := List.forall_mem_cons.1 h
      rw [members_cons]
      cases part with
      | none => exact ih hparts
      | some j =>
        show (true && j.isSound p && soundMembers p (members names parts)) = true
        rw [hpart j rfl, ih hparts]
        rfl

theorem isSound_array {α : Type} {p : String → Bool} {write : α → Json}
    (h : ∀ a, (write a).isSound p = true) (as : List α) :
    (Json.array (as.map write)).isSound p = true := by
  show soundItems p (as.map write) = true
  induction as with
  | nil => rfl
  | cons a as ih =>
    rw [List.map_cons, soundItems, h, ih]
    rfl

theorem isSound_ofStrings (p : String → Bool) (texts : List String) :
    (ofStrings texts).isSound p = true := by
  have hone : ∀ text, (ofString text).isSound p = true := fun _ => rfl
  exact isSound_array hone texts

theorem isSound_ofOption (p : String → Bool) (s : Option String) :
    (ofOption s).isSound p = true := by
  cases s <;> rfl

theorem isSound_doc (p : String → Bool) (doc : Option String) :
    ∀ j ∈ doc.map ofString, j.isSound p = true := by
  intro j hj
  obtain ⟨d, -, rfl⟩ := Option.map_eq_some_iff.1 hj
  rfl

/-- A stored catalog holds no numbers, and all its texts have characters. -/
theorem textual_json (m : Catalog) : m.json.Textual := by
  have hclass : ∀ c : ClassEntry, c.json.isSound (fun _ => false) = true := by
    intro c
    rw [classEntry_json]
    refine isSound_record ?_
    simp only [List.forall_mem_cons, Option.mem_some_iff, forall_eq']
    exact ⟨rfl, isSound_ofOption _ _, rfl, isSound_ofOption _ _, isSound_doc _ _,
      isSound_array (fun member => (member_json_flat member).1 _) _, nofun⟩
  have hfunction : ∀ f : FunctionEntry, f.json.isSound (fun _ => false) = true := by
    intro f
    rw [functionEntry_json]
    refine isSound_record ?_
    simp only [List.forall_mem_cons, Option.mem_some_iff, forall_eq']
    exact ⟨rfl, isSound_ofOption _ _, isSound_ofStrings _ _, isSound_doc _ _, nofun⟩
  have henum : ∀ e : EnumEntry, e.json.isSound (fun _ => false) = true := by
    intro e
    rw [enumEntry_json]
    refine isSound_record ?_
    simp only [List.forall_mem_cons, Option.mem_some_iff, forall_eq']
    exact ⟨rfl, isSound_ofOption _ _, isSound_ofStrings _ _, nofun⟩
  rw [Textual, catalog_json]
  refine isSound_record ?_
  simp only [List.forall_mem_cons, Option.mem_some_iff, forall_eq']
  exact ⟨isSound_ofStrings _ _, isSound_ofStrings _ _, isSound_array hclass _,
    isSound_array hfunction _, isSound_array henum _, nofun⟩

end Stored

namespace Catalog

/-- **A catalog is read back from its text on one line.** -/
theorem read?_line (m : Catalog) : read? m.json.line = some m := by
  rw [read?, Json.read?_line (Stored.textual_json m)]
  exact Stored.catalog?_json m

/-- **A catalog is read back from its text spread over lines,** which is how it is stored. -/
theorem read?_page (m : Catalog) : read? m.page = some m := by
  rw [read?, page, Json.read?_page (Stored.textual_json m)]
  exact Stored.catalog?_json m

end Catalog
end Bindery
