/-
# Which class guards an object

Before a call on an object is made, the catalog is asked whether the class of the object has what is
called. The catalog looks classes up by their bare names, and an object carries the bare name of its
type. So the class that is asked is the first one of that name, and not always the one that the type
names:

| guard | asks along the lineage of the first class of the name |
| --- | --- |
| construct | for the call operator |
| operator | for the operator |
| method | for a method of the name |
| reading and writing a field | for a field of the name, and whether it is read-only |

The guards are decided by the class that the type names if and only if there is a class of its bare
name, and the first such class gives the same answers (`Catalog.decidedBy_iff`). A class that comes
first among those of its name always decides.
-/

import Bindery.Proofs.Catalog.Accessors
import Bindery.Proofs.Cpp.ClassPath
import Bindery.Proofs.Outcome
import Bindery.Session.Calls
import Mathlib.Data.Fintype.EquivFin

namespace Bindery

/-! ### Bare names -/

namespace Spelling

theorem isGroup_of_mem_outside {cs : List Char} {c : Char} :
    ∀ {depth : Nat}, c ∈ outside depth cs → isGroup c = false := by
  induction cs with
  | nil => exact fun h => absurd h List.not_mem_nil
  | cons d r ih =>
    intro depth h
    rw [outside] at h
    split at h
    · rename_i hkept
      rcases List.mem_cons.1 h with rfl | h
      · simp only [Bool.and_eq_true, Bool.not_eq_true'] at hkept
        exact hkept.1
      · exact ih h
    · exact ih h

/-- The bare name of a type is read off its outline. -/
theorem bare_outline (name : String) : bare (outline name) = bare name := by
  have hidem : outside 0 (outside 0 name.toList) = outside 0 name.toList :=
    outside_of_plain fun _ => isGroup_of_mem_outside
  unfold bare bareChars outline
  rw [String.toList_ofList, hidem]

end Spelling

/-! ### Answers of a lineage -/

/-- Whether a member is a method. -/
def Member.isMethod : Member → Bool
  | .method _ _ => true
  | _ => false

namespace Catalog

/-- A lineage declares an operator. -/
def declaresIn (line : List ClassEntry) (op : Operator) : Bool :=
  line.any fun c => c.members.contains (.operator op)

/-- The first member of a name is a method. -/
def methodIn (line : List ClassEntry) (name : String) : Bool :=
  (firstNamed line name).any Member.isMethod

/-- Whether the first member of a name may only be read, if it is a field. -/
def fieldIn? (line : List ClassEntry) (name : String) : Option Bool :=
  (firstNamed line name).bind Member.readOnly?

/-- Two lineages give the guards the same answers. -/
structure AnswersLike (line line' : List ClassEntry) : Prop where
  operator : ∀ op, declaresIn line op = declaresIn line' op
  method : ∀ name, methodIn line name = methodIn line' name
  field : ∀ name, fieldIn? line name = fieldIn? line' name

theorem AnswersLike.refl (line : List ClassEntry) : AnswersLike line line :=
  ⟨fun _ => rfl, fun _ => rfl, fun _ => rfl⟩

/-- The lineage that starts at a class. -/
def lineageFrom (m : Catalog) (k : ClassEntry) : List ClassEntry :=
  (chain m.followReference m.classes.length [] (some k) {}).1

theorem lineage_of_class? {m : Catalog} {name : String} {c : ClassEntry}
    (h : m.class? name = some c) : m.lineage name = m.lineageFrom c := by
  rw [lineage, lineageWith, h, lineageFrom]

/-- A lineage is finite, so some name is no method of it. -/
theorem exists_methodIn_eq_false (line : List ClassEntry) : ∃ name, methodIn line name = false := by
  obtain ⟨name, hname⟩ := Infinite.exists_notMem_finset
    ((line.flatMap (·.members)).filterMap Member.name?).toFinset
  refine ⟨name, ?_⟩
  rw [methodIn, firstNamed, List.find?_eq_none.2]
  · rfl
  · intro member hmem hnamed
    refine hname (List.mem_toFinset.2 (List.mem_filterMap.2 ⟨member, hmem, ?_⟩))
    simpa using hnamed

variable {L : Type}

/-- The guards of the calls on an object are decided by a lineage. -/
structure DecidedBy (m : Catalog) (o : Object (Binding L)) (line : List ClassEntry) : Prop where
  construct : ∀ args, Request.construct m (.object o) args =
    if declaresIn line .call then Request.operator m (.object o) .call args
    else .error (.reconstruction o.className)
  operator : ∀ op args, Request.operator m (.object o) op args = .error (.operator o.className op) ↔
    declaresIn line op = false
  method : ∀ name args options,
    Request.method m (.object o) name args options = .error (.unknownMember o.className name) ↔
      methodIn line name = false
  getField : ∀ field, Session.fieldOwner m (.object o) field =
    match fieldIn? line field with
    | some readOnly => .ok (o, readOnly)
    | none => .error (.unknownMember o.className field)
  setField : ∀ field arg, Session.fieldValue m (.object o) field arg =
    match fieldIn? line field with
    | some false => (arg.marshal.mapError .type).map fun arg => (o, arg.raw)
    | some true => .error (.readOnlyField o.className field)
    | none => .error (.unknownMember o.className field)

/-! ### Guards of an object -/

theorem checkArity_error {op : Operator} {given : Nat} {e : SessionError}
    (h : Request.checkArity op given = .error e) : ∃ expected, e = .arity op expected given := by
  unfold Request.checkArity at h
  split at h
  · split at h
    · exact absurd h nofun
    · exact ⟨_, (Except.error.inj h).symm⟩
  · exact absurd h nofun

theorem operator_refused_iff {m : Catalog} {o : Object (Binding L)} {op : Operator}
    {args : List (Arg (Binding L))} :
    Request.operator m (.object o) op args = .error (.operator o.className op) ↔
      m.hasOperator o.className op = false := by
  cases hdeclares : m.hasOperator o.className op with
  | false =>
    refine iff_of_true ?_ rfl
    show (if !m.hasOperator o.className op then _ else _) = _
    rw [hdeclares]
    rfl
  | true =>
    refine iff_of_false (fun h => ?_) nofun
    replace h : (if !m.hasOperator o.className op then _ else _) = _ := h
    rw [hdeclares, if_neg nofun] at h
    rcases error_of_bind_eq_error h with h | ⟨_, -, h⟩
    · obtain ⟨expected, he⟩ := checkArity_error h
      exact absurd he nofun
    rcases error_of_bind_eq_error h with h | ⟨_, -, h⟩
    · obtain ⟨e, -, he⟩ := exists_of_mapError_eq_error h
      exact absurd he nofun
    · exact absurd h nofun

theorem method_refused_iff {m : Catalog} {o : Object (Binding L)} {name : String}
    {args : List (Arg (Binding L))} {options : CallOptions} :
    Request.method m (.object o) name args options = .error (.unknownMember o.className name) ↔
      m.lacksMethod o.className name = true := by
  cases hlacks : m.lacksMethod o.className name with
  | true =>
    refine iff_of_true ?_ rfl
    show (if m.lacksMethod o.className name then _ else _) = _
    rw [hlacks]
    rfl
  | false =>
    refine iff_of_false (fun h => ?_) nofun
    replace h : (if m.lacksMethod o.className name then _ else _) = _ := h
    rw [hlacks, if_neg nofun] at h
    rcases error_of_bind_eq_error h with h | ⟨_, -, h⟩
    · exact absurd h nofun
    rcases error_of_bind_eq_error h with h | ⟨_, -, h⟩
    · obtain ⟨e, -, he⟩ := exists_of_mapError_eq_error h
      exact absurd he nofun
    · exact absurd h nofun

theorem hasMethod_eq (m : Catalog) (className name : String) :
    m.hasMethod className name = methodIn (m.lineage className) name := by
  rw [hasMethod, member?, methodIn]
  rcases firstNamed (m.lineage className) name with _ | member
  · rfl
  · cases member <;> rfl

theorem fieldOwner_object (m : Catalog) (o : Object (Binding L)) (field : String) :
    Session.fieldOwner m (.object o) field =
      match fieldIn? (m.lineage o.className) field with
      | some readOnly => .ok (o, readOnly)
      | none => .error (.unknownMember o.className field) := by
  rw [Session.fieldOwner, member?, fieldIn?]
  rcases firstNamed (m.lineage o.className) field with _ | member
  · rfl
  · cases member <;> rfl

theorem fieldValue_object (m : Catalog) (o : Object (Binding L)) (field : String)
    (arg : Arg (Binding L)) :
    Session.fieldValue m (.object o) field arg =
      match fieldIn? (m.lineage o.className) field with
      | some false => (arg.marshal.mapError .type).map fun arg => (o, arg.raw)
      | some true => .error (.readOnlyField o.className field)
      | none => .error (.unknownMember o.className field) := by
  rw [Session.fieldValue, fieldOwner_object]
  rcases fieldIn? (m.lineage o.className) field with _ | _ | _ <;> rfl

/-- The first class of the name that an object carries decides. -/
theorem decidedBy_first {m : Catalog} {o : Object (Binding L)} {first : ClassEntry}
    (h : m.class? o.className = some first) : m.DecidedBy o (m.lineageFrom first) := by
  rw [← lineage_of_class? h]
  constructor
  · exact fun args => rfl
  · exact fun op args => operator_refused_iff
  · intro name args options
    rw [method_refused_iff, lacksMethod, h, hasMethod_eq]
    simp
  · exact fieldOwner_object m o
  · exact fieldValue_object m o

/-- What decides the guards of an object gives the answers that the guards give. -/
theorem DecidedBy.answersLike {m : Catalog} {o : Object (Binding L)} {line line' : List ClassEntry}
    (h : m.DecidedBy o line) (h' : m.DecidedBy o line') : AnswersLike line line' := by
  constructor
  · intro op
    have hrefused := (h.operator op []).symm.trans (h'.operator op [])
    exact Bool.not_inj (Bool.coe_false_iff_false.1 hrefused)
  · intro name
    have hrefused := (h.method name [] {}).symm.trans (h'.method name [] {})
    exact Bool.not_inj (Bool.coe_false_iff_false.1 hrefused)
  · intro name
    have howner := (h.getField name).symm.trans (h'.getField name)
    generalize fieldIn? line name = field at howner
    generalize fieldIn? line' name = field' at howner
    cases field <;> cases field'
    · rfl
    · exact absurd howner nofun
    · exact absurd howner nofun
    · exact congrArg some (Prod.mk.inj (Except.ok.inj howner)).2

theorem DecidedBy.congr {m : Catalog} {o : Object (Binding L)} {line line' : List ClassEntry}
    (h : m.DecidedBy o line) (like : AnswersLike line line') : m.DecidedBy o line' := by
  constructor
  · intro args
    rw [← like.operator]
    exact h.construct args
  · intro op args
    rw [← like.operator]
    exact h.operator op args
  · intro name args options
    rw [← like.method]
    exact h.method name args options
  · intro field
    rw [← like.field]
    exact h.getField field
  · intro field arg
    rw [← like.field]
    exact h.setField field arg

/-- Where no class has the name that an object carries, no method of it is refused. -/
theorem DecidedBy.exists_class? {m : Catalog} {o : Object (Binding L)} {line : List ClassEntry}
    (h : m.DecidedBy o line) : ∃ first, m.class? o.className = some first := by
  obtain ⟨name, hname⟩ := exists_methodIn_eq_false line
  have hrefused := method_refused_iff.1 ((h.method name [] {}).2 hname)
  rw [lacksMethod, Bool.and_eq_true] at hrefused
  exact Option.isSome_iff_exists.1 hrefused.1

/-- **The class that a type names decides the guards of an object if and only if** there is a class
of its bare name, and the first one gives the same answers. -/
theorem decidedBy_iff (m : Catalog) (o : Object (Binding L)) (k : ClassEntry)
    (htype : Spelling.outline (Spelling.normalize o.cppType) = k.qualifiedName)
    (hclass : o.className = Spelling.bare (Spelling.normalize o.cppType)) :
    m.DecidedBy o (m.lineageFrom k) ↔
      ∃ first, m.class? (Spelling.bare k.qualifiedName) = some first ∧
        AnswersLike (m.lineageFrom first) (m.lineageFrom k) := by
  rw [← htype, Spelling.bare_outline, ← hclass]
  constructor
  · intro h
    obtain ⟨first, hfirst⟩ := h.exists_class?
    exact ⟨first, hfirst, (decidedBy_first hfirst).answersLike h⟩
  · rintro ⟨first, hfirst, like⟩
    exact (decidedBy_first hfirst).congr like

/-! ### Two classes of one name -/

namespace Namesakes

/-- A class with a field. -/
def first : ClassEntry := ⟨"P", some "a", false, none, none, [.constructor, .field "x" false none]⟩

/-- A class of the same name in another namespace, with a method. -/
def second : ClassEntry := ⟨"P", some "b", false, none, none, [.constructor, .method "m" none]⟩

/-- Both classes. -/
def catalog : Catalog := ⟨[], [], [first, second], [], []⟩

/-- An object of a type, as a result is cast to it. -/
def object (type : String) : Object (Binding Empty) := ⟨type, Spelling.bare type, .borrowed 4096⟩

end Namesakes

open Namesakes in
/-- The hypotheses of `decidedBy_iff` are satisfiable, and so is what it asks for: the first of two
classes of one name decides for its instances. -/
theorem decidedBy_of_first :
    Spelling.outline (Spelling.normalize "a::P<int>") = first.qualifiedName ∧
      catalog.DecidedBy (object "a::P<int>") (catalog.lineageFrom first) := by
  have htype : Spelling.outline (Spelling.normalize "a::P<int>") = first.qualifiedName := by decide
  have hclass : catalog.class? (Spelling.bare first.qualifiedName) = some first := by decide
  exact ⟨htype, (decidedBy_iff catalog (object "a::P<int>") first htype (by decide)).2
    ⟨first, hclass, .refl _⟩⟩

open Namesakes in
/-- The second of two classes of one name does not decide: its method is refused on its objects. -/
theorem not_decidedBy_of_second :
    second ∈ catalog.classes ∧
      Spelling.outline (Spelling.normalize "b::P") = second.qualifiedName ∧
      (object "b::P").className = Spelling.bare (Spelling.normalize "b::P") ∧
      ¬ catalog.DecidedBy (object "b::P") (catalog.lineageFrom second) := by
  refine ⟨by decide, by decide, by decide, fun h => ?_⟩
  have hrefused : Request.method catalog (.object (object "b::P")) "m" [] {} =
      .error (.unknownMember (object "b::P").className "m") := method_refused_iff.2 (by decide)
  exact absurd ((h.method "m" [] {}).1 hrefused) (by decide)

end Catalog
end Bindery
