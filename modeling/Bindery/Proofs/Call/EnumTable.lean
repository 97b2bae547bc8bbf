/-
# What an enumeration table answers

Rows report enumerators in any order, and a table groups them by the normal forms of their type
names. What the table answers depends only on the enumerators that are declared for each type, in
their order (`EnumTable.declared`), and not on how rows of different types are mixed or in which
order the table keeps its types:

| question | answered by |
| --- | --- |
| the type of a name | the type of its normal form, else the only one with this end (`StandsFor`) |
| the value of an enumerator | the first one of this name among those declared for the type |
| the enumerator of a value | the first one with this value among those declared for the type |
| all rows | types in order, values in order, equal values as they were declared |

A table that lists what is declared (`EnumTable.Lists`) gives these answers. The table made of the
rows does, and so does every table with the same types in another order. The main statement is
`EnumTable.answers_by_type`.
-/

import Bindery.Call.EnumTable
import Bindery.Proofs.Cpp.NormalForm
import Bindery.Proofs.Lookup
import Mathlib.Data.List.Induction
import Mathlib.Data.List.Perm.Basic
import Mathlib.Data.String.Basic

namespace Bindery

/-- The type that a row belongs to: the normal form of the name that it reports. -/
def EnumRow.type (r : EnumRow) : String := Spelling.normalize r.typeName

namespace EnumTable

/-! ### What rows declare -/

/-- The enumerators that rows declare for a type, in their order. -/
def declared (rows : List EnumRow) (type : String) : List (String × Int64) :=
  (rows.filter (·.type == type)).map fun r => (r.enumerator, r.value)

/-- Some row belongs to a type. -/
def Occurs (rows : List EnumRow) (type : String) : Prop := ∃ r ∈ rows, r.type = type

/-- The type that a name stands for: the one of its normal form or, where that does not occur, the
only one that ends with `::` and the normal form. -/
inductive StandsFor (rows : List EnumRow) (name : String) : String → Prop
  | named (occurs : Occurs rows (Spelling.normalize name)) :
    StandsFor rows name (Spelling.normalize name)
  | ending {space : String} (absent : ¬ Occurs rows (Spelling.normalize name))
    (occurs : Occurs rows (space ++ "::" ++ Spelling.normalize name))
    (only : ∀ other, Occurs rows (other ++ "::" ++ Spelling.normalize name) → other = space) :
    StandsFor rows name (space ++ "::" ++ Spelling.normalize name)

/-- Rows of one type and name have one value. -/
def Settled (rows : List EnumRow) : Prop :=
  ∀ r ∈ rows, ∀ r' ∈ rows, r.type = r'.type → r.enumerator = r'.enumerator → r.value = r'.value

instance (rows : List EnumRow) : Decidable (Settled rows) :=
  inferInstanceAs (Decidable (∀ r ∈ rows, ∀ r' ∈ rows, _ → _ → _))

theorem declared_eq_nil_iff {rows : List EnumRow} {type : String} :
    declared rows type = [] ↔ ¬ Occurs rows type := by
  simp [declared, Occurs, List.filter_eq_nil_iff]

theorem mem_declared {rows : List EnumRow} {type name : String} {value : Int64} :
    (name, value) ∈ declared rows type ↔
      ∃ r ∈ rows, r.type = type ∧ r.enumerator = name ∧ r.value = value := by
  simp [declared, and_assoc]

theorem declared_concat (rows : List EnumRow) (r : EnumRow) (type : String) :
    declared (rows ++ [r]) type =
      if r.type = type then declared rows type ++ [(r.enumerator, r.value)]
      else declared rows type := by
  by_cases h : r.type = type <;> simp [declared, h]

/-! ### Tables that list what is declared -/

/-- Every type that occurs is in the table once, with the enumerators declared for it. -/
structure Lists (table : EnumTable) (rows : List EnumRow) : Prop where
  distinct : (table.types.map (·.1)).Nodup
  entry : ∀ type, table.types.find? (·.1 == type) =
    if declared rows type = [] then none else some (type, declared rows type)

theorem names_addTo (types : List (String × List (String × Int64))) (type name : String)
    (value : Int64) : (addTo types type name value).map (·.1) =
      if type ∈ types.map (·.1) then types.map (·.1) else types.map (·.1) ++ [type] := by
  induction types with
  | nil => rfl
  | cons t r ih =>
    by_cases h : t.1 = type
    · simp [addTo, h]
    · rw [addTo, if_neg h, List.map_cons, ih, List.map_cons]
      by_cases hr : type ∈ r.map (·.1)
      · rw [if_pos hr, if_pos (List.mem_cons_of_mem _ hr)]
      · rw [if_neg hr, if_neg (by simp [Ne.symm h, hr]), List.cons_append]

/-- One enumerator more goes to the end of its type, and is seen by no other. -/
theorem find?_addTo (types : List (String × List (String × Int64))) (type name : String)
    (value : Int64) (other : String) : (addTo types type name value).find? (·.1 == other) =
      if type = other then
        some (type, ((types.find? (·.1 == type)).elim [] (·.2)) ++ [(name, value)])
      else types.find? (·.1 == other) := by
  induction types with
  | nil => by_cases h : type = other <;> simp [addTo, h]
  | cons t r ih =>
    by_cases h : t.1 = type
    · by_cases hother : type = other <;> simp [addTo, h, hother]
    · by_cases hother : t.1 = other
      · have hne : type ≠ other := fun heq => h (hother.trans heq.symm)
        rw [addTo, if_neg h, if_neg hne, List.find?_cons_of_pos (by simpa using hother),
          List.find?_cons_of_pos (by simpa using hother)]
      · simp [addTo, h, hother, ih]

theorem Lists.concat {table : EnumTable} {rows : List EnumRow} (h : table.Lists rows)
    (r : EnumRow) : Lists ⟨addTo table.types r.type r.enumerator r.value⟩ (rows ++ [r]) where
  distinct := by
    rw [names_addTo]
    split
    · exact h.distinct
    · rename_i hnew
      exact h.distinct.append (List.nodup_singleton _) (by simpa using hnew)
  entry type := by
    rw [find?_addTo, declared_concat, h.entry, h.entry]
    by_cases htype : r.type = type
    · subst htype
      by_cases hnone : declared rows r.type = [] <;> simp [hnone]
    · rw [if_neg htype, if_neg htype]

/-- **The table of rows lists what they declare.** Induction on the rows, from the last one. -/
theorem lists_ofRows (rows : List EnumRow) : (ofRows rows).Lists rows := by
  induction rows using List.reverseRecOn with
  | nil => exact ⟨List.nodup_nil, fun _ => rfl⟩
  | append_singleton rows r ih =>
    have hstep := ih.concat r
    rwa [ofRows, List.foldl_append]

theorem mem_iff_find?_eq_some {types : List (String × List (String × Int64))}
    (distinct : (types.map (·.1)).Nodup) (t : String × List (String × Int64)) :
    t ∈ types ↔ types.find? (·.1 == t.1) = some t :=
  ⟨fun ht => find?_of_nodup distinct ht, List.mem_of_find?_eq_some⟩

theorem Lists.mem_iff {table : EnumTable} {rows : List EnumRow} (h : table.Lists rows)
    {type : String} {names : List (String × Int64)} :
    (type, names) ∈ table.types ↔ Occurs rows type ∧ names = declared rows type := by
  rw [mem_iff_find?_eq_some h.distinct, h.entry]
  by_cases hnone : declared rows type = []
  · simp [hnone, declared_eq_nil_iff.1 hnone]
  · have hoccurs : Occurs rows type := not_not.1 (mt declared_eq_nil_iff.2 hnone)
    simp [hnone, hoccurs, eq_comm]

/-- The order in which a table keeps its types does not count. -/
theorem Lists.of_perm {table table' : EnumTable} {rows : List EnumRow} (h : table.Lists rows)
    (perm : table'.types.Perm table.types) : table'.Lists rows where
  distinct := (perm.map _).nodup_iff.2 h.distinct
  entry type := by
    have distinct := (perm.map (·.1)).nodup_iff.2 h.distinct
    rw [← h.entry]
    refine Option.ext fun t => ?_
    constructor
    · intro ht
      have hname : t.1 = type := by simpa using List.find?_some ht
      have hmem := perm.mem_iff.1 (List.mem_of_find?_eq_some ht)
      rw [← hname]
      exact (mem_iff_find?_eq_some h.distinct t).1 hmem
    · intro ht
      have hname : t.1 = type := by simpa using List.find?_some ht
      have hmem := perm.mem_iff.2 (List.mem_of_find?_eq_some ht)
      rw [← hname]
      exact (mem_iff_find?_eq_some distinct t).1 hmem

/-! ### The type of a name -/

theorem hasSuffix_iff {type suffix : String} :
    hasSuffix type suffix = true ↔ ∃ space, type = space ++ "::" ++ suffix := by
  rw [hasSuffix, List.isSuffixOf_iff_suffix]
  constructor
  · rintro ⟨space, h⟩
    refine ⟨String.ofList space, String.toList_inj.1 ?_⟩
    rw [← h]
    simp
  · rintro ⟨space, rfl⟩
    exact ⟨space.toList, by simp⟩

theorem StandsFor.occurs {rows : List EnumRow} {name type : String}
    (h : StandsFor rows name type) : Occurs rows type := by
  cases h <;> assumption

/-- A list without duplicates with one member is nothing but this member. -/
theorem eq_singleton_iff_of_nodup {α : Type} {l : List α} (h : l.Nodup) {a : α} :
    l = [a] ↔ ∀ b, b ∈ l ↔ b = a := by
  rw [← List.perm_singleton, List.perm_ext_iff_of_nodup h (List.nodup_singleton a)]
  simp

/-- One type alone ends with a name exactly if it is the only one that occurs. -/
theorem Lists.filter_hasSuffix_iff {table : EnumTable} {rows : List EnumRow} (h : table.Lists rows)
    {name type : String} {names : List (String × Int64)} :
    (table.types.filter fun t => hasSuffix t.1 name) = [(type, names)] ↔
      ∃ space, type = space ++ "::" ++ name ∧ Occurs rows type ∧ names = declared rows type ∧
        ∀ other, Occurs rows (other ++ "::" ++ name) → other = space := by
  have hnodup : (table.types.filter fun t => hasSuffix t.1 name).Nodup :=
    (List.Nodup.of_map _ h.distinct).filter _
  rw [eq_singleton_iff_of_nodup hnodup]
  simp only [List.mem_filter]
  constructor
  · intro hmem
    obtain ⟨htypes, hsuffix⟩ := (hmem (type, names)).2 rfl
    obtain ⟨space, rfl⟩ := hasSuffix_iff.1 hsuffix
    obtain ⟨hoccurs, hnames⟩ := h.mem_iff.1 htypes
    refine ⟨space, rfl, hoccurs, hnames, fun other hother => ?_⟩
    have heq := (hmem _).1 ⟨h.mem_iff.2 ⟨hother, rfl⟩, hasSuffix_iff.2 ⟨other, rfl⟩⟩
    simpa using congrArg Prod.fst heq
  · rintro ⟨space, rfl, hoccurs, rfl, honly⟩ t
    constructor
    · rintro ⟨htypes, hsuffix⟩
      obtain ⟨other, hother⟩ := hasSuffix_iff.1 hsuffix
      obtain ⟨hoccurs', hnames⟩ := h.mem_iff.1 htypes
      rw [hother] at hoccurs' hnames
      rw [honly other hoccurs'] at hother hnames
      exact Prod.ext hother hnames
    · rintro rfl
      exact ⟨h.mem_iff.2 ⟨hoccurs, rfl⟩, hasSuffix_iff.2 ⟨space, rfl⟩⟩

/-- **A table finds the type that a name stands for,** with what is declared for it. -/
theorem Lists.find?_eq_some_iff {table : EnumTable} {rows : List EnumRow} (h : table.Lists rows)
    {name type : String} {names : List (String × Int64)} :
    table.find? name = some (type, names) ↔
      StandsFor rows name type ∧ names = declared rows type := by
  rw [find?, h.entry]
  by_cases hnone : declared rows (Spelling.normalize name) = []
  · have habsent := declared_eq_nil_iff.1 hnone
    rw [if_pos hnone]
    constructor
    · intro hfind
      dsimp only at hfind
      split at hfind
      · rename_i only hends
        obtain rfl := Option.some.inj hfind
        obtain ⟨space, rfl, hoccurs, hnames, honly⟩ := h.filter_hasSuffix_iff.1 hends
        exact ⟨.ending habsent hoccurs honly, hnames⟩
      · exact absurd hfind nofun
    · rintro ⟨hstands, rfl⟩
      cases hstands with
      | named hoccurs => exact absurd hoccurs habsent
      | @ending space _ hoccurs honly =>
        simp only [h.filter_hasSuffix_iff.2 ⟨space, rfl, hoccurs, rfl, honly⟩]
  · rw [if_neg hnone]
    have hoccurs := not_not.1 (mt declared_eq_nil_iff.2 hnone)
    constructor
    · intro hfind
      obtain ⟨rfl, rfl⟩ := Prod.mk.inj (Option.some.inj hfind)
      exact ⟨.named hoccurs, rfl⟩
    · rintro ⟨hstands, rfl⟩
      cases hstands with
      | named => rfl
      | ending habsent => exact absurd hoccurs habsent

theorem Lists.resolve?_eq_some_iff {table : EnumTable} {rows : List EnumRow}
    (h : table.Lists rows) {name type : String} :
    table.resolve? name = some type ↔ StandsFor rows name type := by
  rw [resolve?, Option.map_eq_some_iff]
  constructor
  · rintro ⟨⟨type, names⟩, hfind, rfl⟩
    exact (h.find?_eq_some_iff.1 hfind).1
  · intro hstands
    exact ⟨_, h.find?_eq_some_iff.2 ⟨hstands, rfl⟩, rfl⟩

/-! ### All rows -/

theorem rowLe_iff {a b : EnumRow} : rowLe a b = true ↔
    a.typeName < b.typeName ∨ a.typeName = b.typeName ∧ a.value ≤ b.value := by
  simp [rowLe]

theorem rowLe_trans (a b c : EnumRow) (h : rowLe a b = true) (h' : rowLe b c = true) :
    rowLe a c = true := by
  rw [rowLe_iff] at *
  rcases h with h | ⟨htype, hvalue⟩
  · rcases h' with h' | ⟨htype', -⟩
    · exact .inl (String.lt_trans h h')
    · exact .inl (htype' ▸ h)
  · rw [htype]
    rcases h' with h' | ⟨htype', hvalue'⟩
    · exact .inl h'
    · exact .inr ⟨htype', Int64.le_trans hvalue hvalue'⟩

theorem rowLe_total (a b : EnumRow) : (rowLe a b || rowLe b a) = true := by
  rw [Bool.or_eq_true, rowLe_iff, rowLe_iff]
  rcases lt_trichotomy a.typeName b.typeName with h | h | h
  · exact .inl (.inl h)
  · rcases Int64.le_total a.value b.value with hvalue | hvalue
    · exact .inl (.inr ⟨h, hvalue⟩)
    · exact .inr (.inr ⟨h.symm, hvalue⟩)
  · exact .inr (.inl h)

/-- Rows that stand before each other have one type and one value. -/
theorem eq_of_rowLe {a b : EnumRow} (h : rowLe a b = true) (h' : rowLe b a = true) :
    a.typeName = b.typeName ∧ a.value = b.value := by
  rw [rowLe_iff] at h h'
  rcases h with h | ⟨htype, hvalue⟩
  · rcases h' with h' | ⟨htype, -⟩
    · exact absurd (String.lt_trans h h') (String.lt_irrefl _)
    · exact absurd (htype ▸ h) (String.lt_irrefl _)
  · rcases h' with h' | ⟨-, hvalue'⟩
    · exact absurd (htype ▸ h') (String.lt_irrefl _)
    · exact ⟨htype, Int64.le_antisymm hvalue hvalue'⟩

/-- The rows of one type and one value. -/
def rowsAt (rows : List EnumRow) (type : String) (value : Int64) : List EnumRow :=
  rows.filter fun r => r.typeName == type && r.value == value

theorem mem_iff_of_rowsAt {l l' : List EnumRow}
    (hat : ∀ type value, rowsAt l type value = rowsAt l' type value) (r : EnumRow) :
    r ∈ l ↔ r ∈ l' := by
  have hself : ∀ rows : List EnumRow, r ∈ rowsAt rows r.typeName r.value ↔ r ∈ rows := by
    simp [rowsAt]
  rw [← hself l, hat, hself l']

/-- Rows in order are determined by the rows of each type and value. Induction on the rows: the
first one stands before all, so it is the first one of its type and value on both sides. -/
theorem eq_of_sorted {l l' : List EnumRow} (h : l.Pairwise fun a b => rowLe a b = true)
    (h' : l'.Pairwise fun a b => rowLe a b = true)
    (hat : ∀ type value, rowsAt l type value = rowsAt l' type value) : l = l' := by
  have hmem := mem_iff_of_rowsAt hat
  induction l generalizing l' with
  | nil => exact (List.eq_nil_iff_forall_not_mem.2 fun r hr => by simpa using (hmem r).2 hr).symm
  | cons a r ih =>
    cases l' with
    | nil => simpa using (hmem a).1 List.mem_cons_self
    | cons b r' =>
      obtain ⟨ha, hr⟩ := List.pairwise_cons.1 h
      obtain ⟨hb, hr'⟩ := List.pairwise_cons.1 h'
      have hrefl : ∀ r : EnumRow, rowLe r r = true := fun r => by simpa using rowLe_total r r
      have hab : rowLe a b = true := by
        rcases List.mem_cons.1 ((hmem b).2 List.mem_cons_self) with rfl | hmem
        · exact hrefl b
        · exact ha b hmem
      have hba : rowLe b a = true := by
        rcases List.mem_cons.1 ((hmem a).1 List.mem_cons_self) with rfl | hmem
        · exact hrefl a
        · exact hb a hmem
      obtain ⟨htype, hvalue⟩ := eq_of_rowLe hab hba
      have hfirst := hat a.typeName a.value
      rw [rowsAt, rowsAt, List.filter_cons_of_pos (by simp),
        List.filter_cons_of_pos (by simp [htype, hvalue])] at hfirst
      obtain rfl := (List.cons.inj hfirst).1
      have hrest : ∀ type value, rowsAt r type value = rowsAt r' type value := by
        intro type value
        have hboth := hat type value
        simp only [rowsAt, List.filter_cons] at hboth
        split at hboth
        · exact (List.cons.inj hboth).2
        · exact hboth
      rw [ih hr hr' hrest (mem_iff_of_rowsAt hrest)]

/-- Sorting does not move rows of one type and one value past each other. -/
theorem rowsAt_mergeSort (l : List EnumRow) (type : String) (value : Int64) :
    rowsAt (l.mergeSort rowLe) type value = rowsAt l type value := by
  have hsorted : (rowsAt l type value).Pairwise fun a b => rowLe a b = true := by
    refine List.pairwise_of_forall_mem_list fun a ha b hb => ?_
    have ha := (List.mem_filter.1 ha).2
    have hb := (List.mem_filter.1 hb).2
    simp only [Bool.and_eq_true, beq_iff_eq] at ha hb
    exact rowLe_iff.2 (.inr ⟨ha.1.trans hb.1.symm, Int64.le_of_eq (ha.2.trans hb.2.symm)⟩)
  have hsub : (rowsAt l type value).Sublist (l.mergeSort rowLe) :=
    List.sublist_mergeSort rowLe_trans rowLe_total hsorted List.filter_sublist
  have hfilter := hsub.filter fun r => r.typeName == type && r.value == value
  rw [rowsAt, List.filter_filter] at hfilter
  simp only [Bool.and_self] at hfilter
  refine (hfilter.eq_of_length ?_).symm
  exact ((List.mergeSort_perm l rowLe).filter _).length_eq.symm

theorem Lists.filter_types {table : EnumTable} {rows : List EnumRow} (h : table.Lists rows)
    (type : String) : table.types.filter (·.1 == type) =
      if declared rows type = [] then [] else [(type, declared rows type)] := by
  have hnodup : (table.types.filter (·.1 == type)).Nodup :=
    (List.Nodup.of_map _ h.distinct).filter _
  split
  · rename_i hnone
    refine List.filter_eq_nil_iff.2 fun t ht hname => ?_
    obtain ⟨hoccurs, -⟩ := h.mem_iff.1 ht
    exact declared_eq_nil_iff.1 hnone (beq_iff_eq.1 hname ▸ hoccurs)
  · rename_i hsome
    refine (eq_singleton_iff_of_nodup hnodup).2 fun t => ?_
    rw [List.mem_filter]
    constructor
    · rintro ⟨htypes, hname⟩
      obtain rfl := beq_iff_eq.1 hname
      exact Prod.ext rfl (h.mem_iff.1 htypes).2
    · rintro rfl
      exact ⟨h.mem_iff.2 ⟨not_not.1 (mt declared_eq_nil_iff.2 hsome), rfl⟩, by simp⟩

/-- The rows of one type and one value come from the enumerators declared for the type. -/
theorem Lists.rowsAt_rows {table : EnumTable} {rows : List EnumRow} (h : table.Lists rows)
    (type : String) (value : Int64) : rowsAt table.rows type value =
      ((declared rows type).filter (·.2 == value)).map fun n => ⟨type, n.1, n.2⟩ := by
  have hother : ∀ types : List (String × List (String × Int64)),
      (types.flatMap fun t => rowsAt (t.2.map fun n => ⟨t.1, n.1, n.2⟩) type value) =
        (types.filter (·.1 == type)).flatMap fun t =>
          rowsAt (t.2.map fun n => ⟨t.1, n.1, n.2⟩) type value := by
    intro types
    induction types with
    | nil => rfl
    | cons t r ih =>
      by_cases htype : t.1 = type
      · rw [List.filter_cons_of_pos (by simpa using htype), List.flatMap_cons, ih,
          List.flatMap_cons]
      · have hnone : rowsAt (t.2.map fun n => ⟨t.1, n.1, n.2⟩) type value = [] := by
          refine List.filter_eq_nil_iff.2 fun row hrow hat => htype ?_
          obtain ⟨n, -, rfl⟩ := List.mem_map.1 hrow
          rw [Bool.and_eq_true, beq_iff_eq] at hat
          exact hat.1
        rw [List.filter_cons_of_neg (by simpa using htype), List.flatMap_cons, ih, hnone,
          List.nil_append]
  have hself : ∀ names : List (String × Int64),
      rowsAt (names.map fun n => ⟨type, n.1, n.2⟩) type value =
        (names.filter (·.2 == value)).map fun n => ⟨type, n.1, n.2⟩ := by
    intro names
    rw [rowsAt, List.filter_map]
    congr 2
    funext n
    simp
  rw [EnumTable.rows, rowsAt_mergeSort, rowsAt, List.filter_flatMap]
  refine (hother table.types).trans ?_
  rw [h.filter_types]
  split
  · rename_i hnone
    rw [hnone]
    rfl
  · rw [List.flatMap_singleton, hself]

theorem sorted_rows (table : EnumTable) :
    table.rows.Pairwise fun a b => rowLe a b = true :=
  List.pairwise_mergeSort rowLe_trans rowLe_total _

/-! ### Answers -/

/-- Two tables answer every question alike. -/
structure AnswersLike (table table' : EnumTable) : Prop where
  resolve : ∀ name, table.resolve? name = table'.resolve? name
  value : ∀ type name, table.value? type name = table'.value? type name
  enumerator : ∀ type value, table.enumerator? type value = table'.enumerator? type value
  rows : table.rows = table'.rows

/-- **What is declared decides all answers.** -/
theorem Lists.answersLike {table table' : EnumTable} {rows : List EnumRow} (h : table.Lists rows)
    (h' : table'.Lists rows) : AnswersLike table table' := by
  have hfind : ∀ name, table.find? name = table'.find? name := by
    intro name
    refine Option.ext fun ⟨type, names⟩ => ?_
    rw [h.find?_eq_some_iff, h'.find?_eq_some_iff]
  constructor
  · intro name
    rw [resolve?, hfind, resolve?]
  · intro type name
    rw [value?, hfind, value?]
  · intro type value
    rw [enumerator?, hfind, enumerator?]
  · refine eq_of_sorted (sorted_rows table) (sorted_rows table') fun type value => ?_
    rw [h.rowsAt_rows, h'.rowsAt_rows]

/-- The same enumerators are declared for each type. -/
theorem Lists.of_declared {table : EnumTable} {rows rows' : List EnumRow} (h : table.Lists rows)
    (hdeclared : ∀ type, declared rows type = declared rows' type) : table.Lists rows' :=
  ⟨h.distinct, fun type => by rw [h.entry, hdeclared]⟩

/-- A name that occurs as a type stands for itself. -/
theorem standsFor_type {rows : List EnumRow} {type : String} (h : Occurs rows type) :
    StandsFor rows type type := by
  obtain ⟨r, hr, rfl⟩ := h
  have hnormal : Spelling.normalize r.type = r.type := Spelling.normalize_normalize r.typeName
  have hstands : StandsFor rows r.type (Spelling.normalize r.type) :=
    .named ⟨r, hr, hnormal.symm⟩
  rwa [hnormal] at hstands

/-- An enumerator that is found belongs to the type that its name stands for. -/
theorem Lists.value?_eq_some {table : EnumTable} {rows : List EnumRow} (h : table.Lists rows)
    {type name : String} {v : EnumValue} (hv : table.value? type name = some v) :
    StandsFor rows type v.typeName ∧ (name, v.value) ∈ declared rows v.typeName := by
  rw [value?, Option.bind_eq_bind, Option.bind_eq_some_iff] at hv
  obtain ⟨⟨full, names⟩, hfind, hv⟩ := hv
  obtain ⟨hstands, rfl⟩ := h.find?_eq_some_iff.1 hfind
  rw [Option.bind_eq_bind, Option.bind_eq_some_iff] at hv
  obtain ⟨⟨found, value⟩, hfound, hv⟩ := hv
  obtain rfl := Option.some.inj hv
  have hname : found = name := by simpa using List.find?_some hfound
  exact ⟨hstands, hname ▸ List.mem_of_find?_eq_some hfound⟩

/-- The value of an enumerator of a type is that of the first row with its name. -/
theorem Lists.value?_type {table : EnumTable} {rows : List EnumRow} (h : table.Lists rows)
    {type : String} (hoccurs : Occurs rows type) (name : String) :
    table.value? type name =
      ((declared rows type).find? (·.1 == name)).map fun n => ⟨type, some name, n.2⟩ := by
  rw [value?, h.find?_eq_some_iff.2 ⟨standsFor_type hoccurs, rfl⟩]
  simp only [Option.bind_eq_bind, Option.bind_some]
  cases (declared rows type).find? (·.1 == name) <;> rfl

/-- The enumerator of a value of a type is that of the first row with the value. -/
theorem Lists.enumerator?_type {table : EnumTable} {rows : List EnumRow} (h : table.Lists rows)
    {type : String} (hoccurs : Occurs rows type) (value : Int64) :
    table.enumerator? type value =
      (rows.find? fun r => r.type == type && r.value == value).map (·.enumerator) := by
  rw [enumerator?, h.find?_eq_some_iff.2 ⟨standsFor_type hoccurs, rfl⟩]
  simp only [Option.bind_eq_bind, Option.bind_some]
  have hfirst : (declared rows type).find? (·.2 == value) =
      (rows.find? fun r => r.type == type && r.value == value).map
        fun r => (r.enumerator, r.value) := by
    rw [declared, List.find?_map, List.find?_filter]
    congr 2
    funext r
    rw [Bool.eq_iff_iff]
    simp
  rw [hfirst]
  cases rows.find? fun r => r.type == type && r.value == value <;> rfl

/-- **Answers by type.** For rows of one type and name that have one value:

* rows with the same rows of each type, in any other respect in another order, give the same
  answers, in whichever order their table keeps its types;
* a name stands for the type of its normal form, else for the only one with this end, else for none;
* the value that is found for an enumerator belongs to a type that stands for itself, the enumerator
  of this value is the first that a row declares, and it has the value. -/
theorem answers_by_type {rows : List EnumRow} (settled : Settled rows) :
    (∀ rows' : List EnumRow,
      (∀ type, rows'.filter (·.type == type) = rows.filter (·.type == type)) →
      ∀ table : EnumTable, table.types.Perm (ofRows rows').types →
        AnswersLike table (ofRows rows)) ∧
    (∀ name type, (ofRows rows).resolve? name = some type ↔ StandsFor rows name type) ∧
    ∀ type name v, (ofRows rows).value? type name = some v →
      (ofRows rows).resolve? v.typeName = some v.typeName ∧
      ∃ r, (rows.find? fun r => r.type == v.typeName && r.value == v.value) = some r ∧
        (ofRows rows).enumerator? v.typeName v.value = some r.enumerator ∧
        (ofRows rows).value? v.typeName r.enumerator =
          some ⟨v.typeName, some r.enumerator, v.value⟩ := by
  have lists := lists_ofRows rows
  refine ⟨fun rows' hrows table perm => ?_, fun name type => lists.resolve?_eq_some_iff,
    fun type name v hv => ?_⟩
  · have hlists : table.Lists rows := ((lists_ofRows rows').of_perm perm).of_declared fun type => by
      rw [declared, hrows, declared]
    exact hlists.answersLike lists
  · obtain ⟨hstands, hdeclared⟩ := lists.value?_eq_some hv
    have hself := standsFor_type hstands.occurs
    obtain ⟨r₀, hr₀, htype₀, -, hvalue₀⟩ := mem_declared.1 hdeclared
    obtain ⟨r, hfirst⟩ : ∃ r, (rows.find? fun r => r.type == v.typeName && r.value == v.value) =
        some r :=
      Option.isSome_iff_exists.1 (List.find?_isSome.2 ⟨r₀, hr₀, by simp [htype₀, hvalue₀]⟩)
    have hr := List.mem_of_find?_eq_some hfirst
    have hat := List.find?_some hfirst
    rw [Bool.and_eq_true, beq_iff_eq, beq_iff_eq] at hat
    refine ⟨lists.resolve?_eq_some_iff.2 hself, r, hfirst, ?_, ?_⟩
    · rw [lists.enumerator?_type hstands.occurs, hfirst, Option.map_some]
    · rw [lists.value?_type hstands.occurs]
      obtain ⟨⟨found, value⟩, hfound⟩ : ∃ n, (declared rows v.typeName).find?
          (·.1 == r.enumerator) = some n :=
        Option.isSome_iff_exists.1 (List.find?_isSome.2
          ⟨(r.enumerator, r.value), mem_declared.2 ⟨r, hr, hat.1, rfl, rfl⟩, by simp⟩)
      have hname : found = r.enumerator := by simpa using List.find?_some hfound
      obtain ⟨r', hr', htype', hname', rfl⟩ :=
        mem_declared.1 (List.mem_of_find?_eq_some hfound)
      -- Both rows have one type and one name, so they have one value.
      have hvalue := settled r' hr' r hr (htype'.trans hat.1.symm) (hname'.trans hname)
      rw [hfound, Option.map_some, hvalue, hat.2]

/-- Two enumerations with an end in common, and one on its own with two names for a value. -/
def modes : List EnumRow :=
  [⟨"solver::Mode", "Fast", 0⟩, ⟨"io::Format", "Csv", 1⟩, ⟨"solver:: Mode", "Exact", 4⟩,
    ⟨"net::Format", "Json", 1⟩, ⟨"solver::Mode", "Default", 0⟩]

/-- The hypothesis of `answers_by_type` is satisfiable: `Default` of `Mode` has the value of `Fast`,
which is declared first, and `Format` stands for no type. -/
theorem answers_by_type_modes :
    Settled modes ∧
      (ofRows modes).value? "Mode" "Default" = some ⟨"solver::Mode", some "Default", 0⟩ ∧
      (ofRows modes).resolve? "solver::Mode" = some "solver::Mode" ∧
      (ofRows modes).enumerator? "solver::Mode" 0 = some "Fast" ∧
      (∀ type, ¬ StandsFor modes "Format" type) ∧
      AnswersLike ⟨(ofRows modes).types.reverse⟩ (ofRows modes) := by
  have settled : Settled modes := by decide +kernel
  have hvalue : (ofRows modes).value? "Mode" "Default" =
      some ⟨"solver::Mode", some "Default", 0⟩ := by
    decide +kernel
  have hnone : (ofRows modes).resolve? "Format" = none := by decide +kernel
  obtain ⟨horder, hresolve, hback⟩ := answers_by_type settled
  obtain ⟨hself, r, hfirst, hname, -⟩ := hback _ _ _ hvalue
  have hr : r = ⟨"solver::Mode", "Fast", 0⟩ := by
    have hfast : (modes.find? fun r => r.type == "solver::Mode" && r.value == 0) =
        some ⟨"solver::Mode", "Fast", 0⟩ := by
      decide +kernel
    exact Option.some.inj (hfirst.symm.trans hfast)
  rw [hr] at hname
  refine ⟨settled, hvalue, hself, hname, fun type hstands => ?_, ?_⟩
  · have hfound := (hresolve _ _).2 hstands
    rw [hnone] at hfound
    exact absurd hfound.symm (Option.some_ne_none type)
  · exact horder modes (fun _ => rfl) _ (List.reverse_perm _)

end EnumTable
end Bindery
