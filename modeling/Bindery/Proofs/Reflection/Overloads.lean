/-
# Headers apart and together

Overloads of a function are grouped by its name, in two ways: reading a header adds one overload at
a time, and merging adds the groups of one header to those of another. Both are the same
(`Reflection.merge_ofEntities`), because groups have different names:

| added | group of the name | what becomes of the groups |
| --- | --- | --- |
| one overload | there | it goes to the end of that group |
| one overload | missing | it is a new last group, and its namespace that of the group |
| a whole group | there | its overloads go to the end of that group |
| a whole group | missing | it is a new last group |

So a header set is one stream of declarations, however it is split into headers, and the groups can
be read off the stream (`Reflection.Grouped`): names in the order in which they occur first, the
namespace of the first overload, and every overload once. The main statement is
`Reflection.headers_apart_and_together`.
-/

import Bindery.Header.Reader
import Bindery.Proofs.Outcome
import Mathlib.Data.List.Induction

namespace Bindery

/-! ### First occurrences -/

section

variable {α : Type} [DecidableEq α]

theorem eraseDups_concat (as : List α) (a : α) :
    (as ++ [a]).eraseDups = if a ∈ as then as.eraseDups else as.eraseDups ++ [a] := by
  rw [List.eraseDups_append]
  by_cases h : a ∈ as <;> simp [h, List.removeAll, List.eraseDups_cons]

/-- Each first occurrence is there once. -/
theorem nodup_eraseDups (as : List α) : as.eraseDups.Nodup := by
  induction as using List.reverseRecOn with
  | nil => exact List.nodup_nil
  | append_singleton as a ih =>
    rw [eraseDups_concat]
    split
    · exact ih
    · rename_i hnew
      refine List.nodup_append.2 ⟨ih, by simp, fun b hb c hc heq => hnew ?_⟩
      rw [← List.mem_singleton.1 hc, ← heq]
      exact List.mem_eraseDups.1 hb

end

namespace Reflection

/-- The names of groups. -/
def names (groups : List FunctionInfo) : List String := groups.map (·.name)

@[simp] theorem names_cons (g : FunctionInfo) (r : List FunctionInfo) :
    names (g :: r) = g.name :: names r := rfl

/-! ### One group more -/

theorem addGroup_cons_of_eq {h g : FunctionInfo} (r : List FunctionInfo) (heq : h.name = g.name) :
    addGroup (h :: r) g = { h with overloads := h.overloads ++ g.overloads } :: r := by
  rw [addGroup, if_pos heq]

theorem addGroup_cons_of_ne {h g : FunctionInfo} (r : List FunctionInfo) (hne : h.name ≠ g.name) :
    addGroup (h :: r) g = h :: addGroup r g := by
  rw [addGroup, if_neg hne]

theorem names_addGroup (groups : List FunctionInfo) (g : FunctionInfo) :
    names (addGroup groups g) =
      if g.name ∈ names groups then names groups else names groups ++ [g.name] := by
  induction groups with
  | nil => rfl
  | cons h r ih =>
    by_cases heq : h.name = g.name
    · rw [addGroup_cons_of_eq r heq, if_pos (by simp [heq])]
      rfl
    · have hmem : g.name ∈ names (h :: r) ↔ g.name ∈ names r := by simp [Ne.symm heq]
      rw [addGroup_cons_of_ne r heq, names_cons, ih, if_congr hmem rfl rfl]
      split <;> rfl

/-- A group is one of another name as it was, the one of this name with the new overloads, or
new. -/
theorem cases_of_mem_addGroup {groups : List FunctionInfo} {g k : FunctionInfo}
    (hdistinct : (names groups).Nodup) (h : k ∈ addGroup groups g) :
    (k ∈ groups ∧ k.name ≠ g.name) ∨
    (∃ old ∈ groups, old.name = g.name ∧
      k = { old with overloads := old.overloads ++ g.overloads }) ∨
    (k = g ∧ g.name ∉ names groups) := by
  induction groups with
  | nil => exact .inr (.inr ⟨List.mem_singleton.1 h, List.not_mem_nil⟩)
  | cons first r ih =>
    obtain ⟨hfirst, hr⟩ := List.nodup_cons.1 hdistinct
    by_cases heq : first.name = g.name
    · rw [addGroup_cons_of_eq r heq] at h
      rcases List.mem_cons.1 h with rfl | h
      · exact .inr (.inl ⟨first, List.mem_cons_self, heq, rfl⟩)
      · refine .inl ⟨List.mem_cons_of_mem _ h, fun hname => hfirst ?_⟩
        exact List.mem_map.2 ⟨k, h, hname.trans heq.symm⟩
    · rw [addGroup_cons_of_ne r heq] at h
      rcases List.mem_cons.1 h with rfl | h
      · exact .inl ⟨List.mem_cons_self, heq⟩
      · rcases ih hr h with ⟨hk, hname⟩ | ⟨old, hold, hname, rfl⟩ | ⟨rfl, hnew⟩
        · exact .inl ⟨List.mem_cons_of_mem _ hk, hname⟩
        · exact .inr (.inl ⟨old, List.mem_cons_of_mem _ hold, hname, rfl⟩)
        · refine .inr (.inr ⟨rfl, fun hmem => ?_⟩)
          rcases List.mem_cons.1 hmem with hmem | hmem
          · exact heq hmem.symm
          · exact hnew hmem

/-- No overload is lost and none is listed twice. -/
theorem overloads_addGroup (groups : List FunctionInfo) (g : FunctionInfo) :
    ((addGroup groups g).flatMap (·.overloads)).Perm
      (groups.flatMap (·.overloads) ++ g.overloads) := by
  induction groups with
  | nil => simp [addGroup]
  | cons h r ih =>
    by_cases heq : h.name = g.name
    · rw [addGroup_cons_of_eq r heq, List.flatMap_cons, List.flatMap_cons, List.append_assoc,
        List.append_assoc]
      exact List.perm_append_comm.append_left _
    · rw [addGroup_cons_of_ne r heq, List.flatMap_cons, List.flatMap_cons, List.append_assoc]
      exact ih.append_left _

/-! ### Groups of a stream -/

/-- What overloads in a row, each with its namespace, are grouped to. -/
structure Grouped (stream : List (Option String × MethodInfo)) (groups : List FunctionInfo) :
    Prop where
  distinct : (names groups).Nodup
  /-- The names stand in the order in which they occur first. -/
  order : names groups = (stream.map (·.2.name)).eraseDups
  /-- A group has the namespace of its first overload. -/
  space : ∀ g ∈ groups, (stream.find? (·.2.name == g.name)).map (·.1) = some g.space
  /-- A group lists the overloads of its name in their order. -/
  overloads : ∀ g ∈ groups, g.overloads = (stream.filter (·.2.name == g.name)).map (·.2)
  /-- Every overload stands in one group, once. -/
  once : (groups.flatMap (·.overloads)).Perm (stream.map (·.2))

theorem grouped_nil : Grouped [] [] :=
  ⟨List.nodup_nil, rfl, nofun, nofun, List.Perm.nil⟩

/-- One overload more. A group of another name does not see it; the group of its name, or the new
one, has it at its end. -/
theorem Grouped.concat {stream : List (Option String × MethodInfo)} {groups : List FunctionInfo}
    (h : Grouped stream groups) (space : Option String) (o : MethodInfo) :
    Grouped (stream ++ [(space, o)]) (addGroup groups ⟨o.name, space, [o]⟩) := by
  have horder : names (addGroup groups ⟨o.name, space, [o]⟩) =
      ((stream ++ [(space, o)]).map (·.2.name)).eraseDups := by
    rw [names_addGroup, h.order, List.map_append, List.map_singleton, eraseDups_concat]
    simp only [List.mem_eraseDups]
  have hother : ∀ name, o.name ≠ name →
      (stream ++ [(space, o)]).filter (·.2.name == name) = stream.filter (·.2.name == name) := by
    intro name hne
    rw [List.filter_append, List.filter_cons_of_neg (by simpa using hne), List.filter_nil,
      List.append_nil]
  have hself : (stream ++ [(space, o)]).filter (·.2.name == o.name) =
      stream.filter (·.2.name == o.name) ++ [(space, o)] := by
    rw [List.filter_append, List.filter_cons_of_pos (by simp), List.filter_nil]
  refine ⟨?_, horder, fun g hg => ?_, fun g hg => ?_, ?_⟩
  · rw [horder]
    exact nodup_eraseDups _
  · rw [List.find?_append]
    rcases cases_of_mem_addGroup h.distinct hg with ⟨hg, -⟩ | ⟨old, hold, -, rfl⟩ | ⟨rfl, hnew⟩
    · obtain ⟨first, hfirst, hspace⟩ := Option.map_eq_some_iff.1 (h.space g hg)
      rw [hfirst, Option.some_or, Option.map_some, hspace]
    · obtain ⟨first, hfirst, hspace⟩ := Option.map_eq_some_iff.1 (h.space old hold)
      rw [hfirst, Option.some_or, Option.map_some, hspace]
    · have hnone : stream.find? (·.2.name == o.name) = none := by
        refine List.find?_eq_none.2 fun other hmem heq => hnew ?_
        rw [h.order, List.mem_eraseDups]
        exact List.mem_map.2 ⟨other, hmem, beq_iff_eq.1 heq⟩
      rw [hnone, Option.none_or, List.find?_cons_of_pos (by simp), Option.map_some]
  · rcases cases_of_mem_addGroup h.distinct hg with ⟨hg, hne⟩ | ⟨old, hold, hname, rfl⟩ | ⟨rfl, hnew⟩
    · rw [hother g.name (Ne.symm hne), h.overloads g hg]
    · have heq : old.name = o.name := hname
      rw [heq, hself, List.map_append, h.overloads old hold, heq, List.map_singleton]
    · have hnone : stream.filter (·.2.name == o.name) = [] := by
        refine List.filter_eq_nil_iff.2 fun other hmem heq => hnew ?_
        rw [h.order, List.mem_eraseDups]
        exact List.mem_map.2 ⟨other, hmem, beq_iff_eq.1 heq⟩
      rw [hself, hnone, List.nil_append, List.map_singleton]
  · rw [List.map_append, List.map_singleton]
    exact (overloads_addGroup _ _).trans (h.once.append_right _)

end Reflection

/-! ### Streams of declarations -/

namespace Entity

/-- The class that a declaration is. -/
def class? : Entity → Option ClassInfo
  | .class c => some c
  | .function .. | .enumeration _ => none

/-- The overload that a declaration is, with its namespace. -/
def overload? : Entity → Option (Option String × MethodInfo)
  | .function space overload => some (space, overload)
  | .class _ | .enumeration _ => none

/-- The enumeration that a declaration is. -/
def enumeration? : Entity → Option EnumInfo
  | .enumeration e => some e
  | .class _ | .function .. => none

end Entity

namespace Reflection

/-- What declarations in a row declare: classes and enumerations as they come, and overloads in
groups. -/
structure Reads (entities : List Entity) (r : Reflection) : Prop where
  classes : r.classes = entities.filterMap (·.class?)
  enums : r.enums = entities.filterMap (·.enumeration?)
  functions : Grouped (entities.filterMap (·.overload?)) r.functions

theorem ofEntities_concat (entities : List Entity) (e : Entity) :
    ofEntities (entities ++ [e]) = (ofEntities entities).add e := by
  rw [ofEntities, List.foldl_append]
  rfl

/-- A list of declarations is read as it stands. Induction on the list, with the last declaration
added to what the others are read as. -/
theorem reads_ofEntities (entities : List Entity) : Reads entities (ofEntities entities) := by
  induction entities using List.reverseRecOn with
  | nil => exact ⟨rfl, rfl, grouped_nil⟩
  | append_singleton entities e ih =>
    rw [ofEntities_concat]
    cases e with
    | «class» c =>
      refine ⟨?_, ?_, ?_⟩ <;> rw [List.filterMap_append]
      · exact congrArg (· ++ [c]) ih.classes
      · exact ih.enums.trans (List.append_nil _).symm
      · exact (List.append_nil _).symm ▸ ih.functions
    | function space overload =>
      refine ⟨?_, ?_, ?_⟩ <;> rw [List.filterMap_append]
      · exact ih.classes.trans (List.append_nil _).symm
      · exact ih.enums.trans (List.append_nil _).symm
      · exact ih.functions.concat space overload
    | enumeration e =>
      refine ⟨?_, ?_, ?_⟩ <;> rw [List.filterMap_append]
      · exact ih.classes.trans (List.append_nil _).symm
      · exact congrArg (· ++ [e]) ih.enums
      · exact (List.append_nil _).symm ▸ ih.functions

/-! ### Merging -/

/-- An overload more of a group that is there is an overload more behind all others. -/
theorem addGroup_join (groups : List FunctionInfo) {h g : FunctionInfo} (heq : h.name = g.name) :
    addGroup groups { h with overloads := h.overloads ++ g.overloads } =
      addGroup (addGroup groups h) g := by
  induction groups with
  | nil => rw [addGroup, addGroup, addGroup_cons_of_eq [] heq]
  | cons k r ih =>
    by_cases hk : k.name = h.name
    · rw [addGroup_cons_of_eq r hk, addGroup_cons_of_eq r (by exact hk),
        addGroup_cons_of_eq r (by exact hk.trans heq), List.append_assoc]
    · rw [addGroup_cons_of_ne r hk, addGroup_cons_of_ne r (by exact hk),
        addGroup_cons_of_ne (addGroup r h) fun h' => hk (h'.trans heq.symm), ih]

/-- Adding to a group that is there and adding a group of another name can change places. -/
theorem addGroup_comm {groups : List FunctionInfo} {g k : FunctionInfo} (hne : g.name ≠ k.name)
    (hmem : g.name ∈ names groups) :
    addGroup (addGroup groups g) k = addGroup (addGroup groups k) g := by
  induction groups with
  | nil => exact absurd hmem List.not_mem_nil
  | cons h r ih =>
    by_cases hg : h.name = g.name
    · have hk : h.name ≠ k.name := fun h' => hne (hg.symm.trans h')
      rw [addGroup_cons_of_eq r hg, addGroup_cons_of_ne r hk, addGroup_cons_of_ne r (by exact hk),
        addGroup_cons_of_eq _ hg]
    · have hr : g.name ∈ names r := (List.mem_cons.1 hmem).resolve_left fun h' => hg h'.symm
      rw [addGroup_cons_of_ne r hg]
      by_cases hk : h.name = k.name
      · rw [addGroup_cons_of_eq _ hk, addGroup_cons_of_eq _ hk, addGroup_cons_of_ne r (by exact hg)]
      · rw [addGroup_cons_of_ne _ hk, addGroup_cons_of_ne _ hk, addGroup_cons_of_ne _ hg, ih hr]

theorem foldl_addGroup_comm {more groups : List FunctionInfo} {g : FunctionInfo}
    (hmem : g.name ∈ names groups) (hmore : g.name ∉ names more) :
    more.foldl addGroup (addGroup groups g) = addGroup (more.foldl addGroup groups) g := by
  induction more generalizing groups with
  | nil => rfl
  | cons k more ih =>
    rw [names_cons, List.mem_cons, not_or] at hmore
    obtain ⟨hne, hmore⟩ := hmore
    have hstill : g.name ∈ names (addGroup groups k) := by
      rw [names_addGroup]
      split
      · exact hmem
      · exact List.mem_append_left _ hmem
    rw [List.foldl_cons, List.foldl_cons, addGroup_comm hne hmem, ih hstill hmore]

/-- **Adding to a group and then merging is merging and then adding.** Induction on the groups that
are merged; that their names are different carries it. -/
theorem foldl_addGroup (groups : List FunctionInfo) {more : List FunctionInfo}
    (hdistinct : (names more).Nodup) (g : FunctionInfo) :
    (addGroup more g).foldl addGroup groups = addGroup (more.foldl addGroup groups) g := by
  induction more generalizing groups with
  | nil => rfl
  | cons h r ih =>
    obtain ⟨hfresh, hr⟩ := List.nodup_cons.1 hdistinct
    by_cases heq : h.name = g.name
    · have hmem : g.name ∈ names (addGroup groups h) := by
        rw [names_addGroup, heq]
        split
        · assumption
        · exact List.mem_append_right _ (List.mem_singleton.2 rfl)
      rw [addGroup_cons_of_eq r heq, List.foldl_cons, List.foldl_cons, addGroup_join groups heq]
      exact foldl_addGroup_comm hmem (heq ▸ hfresh)
    · rw [addGroup_cons_of_ne r heq, List.foldl_cons, List.foldl_cons, ih (addGroup groups h) hr]

theorem merge_add (r s : Reflection) (hdistinct : (names s.functions).Nodup) (e : Entity) :
    r.merge (s.add e) = (r.merge s).add e := by
  cases e with
  | «class» c => simp only [merge, add, List.append_assoc]
  | function space overload =>
    simp only [merge, add, addOverload, foldl_addGroup r.functions hdistinct]
  | enumeration e => simp only [merge, add, List.append_assoc]

theorem merge_empty (r : Reflection) : r.merge {} = r := by
  simp only [merge, List.append_nil, List.foldl_nil]

/-- **Two lists of declarations, merged, are one list.** -/
theorem merge_ofEntities (entities more : List Entity) :
    (ofEntities entities).merge (ofEntities more) = ofEntities (entities ++ more) := by
  induction more using List.reverseRecOn with
  | nil =>
    rw [List.append_nil]
    exact merge_empty _
  | append_singleton more e ih =>
    rw [ofEntities_concat, merge_add _ _ (reads_ofEntities more).functions.distinct, ih,
      ← List.append_assoc, ofEntities_concat]

theorem foldl_merge (entities : List Entity) (files : List (List Entity)) :
    (files.map ofEntities).foldl merge (ofEntities entities) =
      ofEntities (entities ++ files.flatten) := by
  induction files generalizing entities with
  | nil => rw [List.map_nil, List.foldl_nil, List.flatten_nil, List.append_nil]
  | cons file files ih =>
    rw [List.map_cons, List.foldl_cons, merge_ofEntities, ih, List.flatten_cons, List.append_assoc]

theorem mapM_ofHeader (headers : List (List UInt8)) :
    headers.mapM ofHeader = (headers.mapM Header.read).map (·.map ofEntities) := by
  induction headers with
  | nil => rfl
  | cons header headers ih =>
    rw [List.mapM_cons, List.mapM_cons, ih, ofHeader]
    cases Header.read header with
    | error e => rfl
    | ok entities => cases headers.mapM Header.read <;> rfl

/-- **Headers apart and together.** Merging what lists of declarations declare gives what the
declarations declare in a row, however they are split; this is what a header set is read as. There
the groups have different names, in the order in which these occur first, each has the namespace of
its first overload, and every overload is listed once, in its order. -/
theorem headers_apart_and_together :
    (∀ entities more, (ofEntities entities).merge (ofEntities more) =
      ofEntities (entities ++ more)) ∧
    (∀ files : List (List Entity),
      (files.map ofEntities).foldl merge {} = ofEntities files.flatten ∧
        Reads files.flatten (ofEntities files.flatten)) ∧
    ∀ headers, ofHeaders headers =
      (headers.mapM Header.read).map fun files => ofEntities files.flatten := by
  refine ⟨merge_ofEntities, fun files => ⟨foldl_merge [] files, reads_ofEntities _⟩,
    fun headers => ?_⟩
  rw [ofHeaders, mapM_ofHeader]
  cases headers.mapM Header.read with
  | error e => rfl
  | ok files => exact congrArg Except.ok (foldl_merge [] files)

end Reflection
end Bindery
