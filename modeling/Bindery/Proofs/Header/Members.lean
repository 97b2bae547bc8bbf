/-
# What a class body makes of a class

A member function may be declared by a declaration or a definition, alone or under templates of any
depth, and is counted unless it is static and only declared (`MemberFunction.isCounted`). From the
public ones that are counted, in their order, the methods and operators of the class follow
(`ClassInfo.Lists`):

| of the class | is |
| --- | --- |
| the names of its methods | the plain names but the class's own, where they occur first |
| a method | the first function of its name, with its parameters and documentation |
| its operators | the operators of the functions, where they occur first |

So hidden declarations leave no trace. Static functions do: a static operator is no operator of the
class if it is declared, but is one if it is defined in the body. The operators are those of the
functions that are not static exactly if each operator that a static definition adds is declared
by one of them as well (`ClassInfo.operatorsNonstatic_iff`).
-/

import Bindery.Proofs.Header.Hidden
import Bindery.Proofs.Reflection.Overloads
import Mathlib.Data.List.Basic

namespace Bindery
namespace Header

/-- A member function as it is declared. -/
structure MemberFunction where
  name : Declarator
  params : List String
  doc : Option String
  isStatic : Bool
  isDefinition : Bool

namespace MemberFunction

/-- Whether a member function is one of the class: a static one only where it is defined. -/
def isCounted (f : MemberFunction) : Bool := f.isDefinition || !f.isStatic

/-- The method that a member function is, if its name is a plain one. -/
def method? (f : MemberFunction) : Option MethodInfo :=
  match f.name with
  | .name s => some ⟨s, f.params, f.doc⟩
  | _ => none

/-- The operators that a member function is. -/
def operators (f : MemberFunction) : List Operator :=
  match f.name with
  | .operation s => Operator.ofMember s f.params.length
  | _ => []

end MemberFunction

/-- The member function that a declarator of a declaration declares. -/
def Plain.function? (p : Plain) (d : Declarator) : Option MemberFunction :=
  d.function?.map fun (name, params) => ⟨name, params, p.doc, p.isStatic, p.isDefinition⟩

/-- The member functions that a declaration declares, through templates of any depth. A definition
defines its first declarator. -/
def Declaration.functions : Declaration → List MemberFunction
  | .plain p _ =>
    (if p.isDefinition then p.declarators.take 1 else p.declarators).filterMap p.function?
  | .template _ inner => inner.functions
  | .typedef .. | .alias .. | .other => []

/-- The public declarations of a class body. -/
def publicMembers (isPublic : Bool) : List BodyItem → List Declaration
  | [] => []
  | .access p :: more => publicMembers p more
  | .member d :: more =>
    if isPublic then d :: publicMembers isPublic more else publicMembers isPublic more

/-- The public member functions of a class body. -/
def publicFunctions (isPublic : Bool) (items : List BodyItem) : List MemberFunction :=
  (publicMembers isPublic items).flatMap (·.functions)

theorem publicMembers_withoutHidden (isPublic : Bool) (items : List BodyItem) :
    publicMembers isPublic (withoutHidden isPublic items) = publicMembers isPublic items := by
  induction items generalizing isPublic with
  | nil => rfl
  | cons item more ih =>
    cases item with
    | access p => exact ih p
    | member d =>
      cases isPublic with
      | true => exact congrArg (d :: ·) (ih true)
      | false => exact ih false

end Header

namespace ClassInfo

open Header

theorem addItems_eq (isPublic : Bool) (c : ClassInfo) (items : List BodyItem) :
    c.addItems isPublic items = (publicMembers isPublic items).foldl (addMember false) c := by
  induction items generalizing c isPublic with
  | nil => rfl
  | cons item more ih =>
    cases item with
    | access p => exact ih p c
    | member d =>
      cases isPublic with
      | true => exact ih true (c.addMember false d)
      | false => exact ih false c

/-- The methods among member functions, without those that have the class's own name. -/
def methodsAmong (own : String) (fs : List MemberFunction) : List MethodInfo :=
  (fs.filterMap (·.method?)).filter (·.name ≠ own)

/-- What a class lists of member functions in a row. -/
structure Lists (own : String) (fs : List MemberFunction) (c : ClassInfo) : Prop where
  name : c.name = own
  /-- The names of the methods stand in the order in which they occur first. -/
  order : c.methods.map (·.name) = ((methodsAmong own fs).map (·.name)).eraseDups
  /-- A method is the first of its name. -/
  first : ∀ m ∈ c.methods, (methodsAmong own fs).find? (·.name == m.name) = some m
  /-- Each operator is listed where it occurs first. -/
  operators : c.operators = (fs.flatMap (·.operators)).eraseDups

theorem methodsAmong_append (own : String) (fs gs : List MemberFunction) :
    methodsAmong own (fs ++ gs) = methodsAmong own fs ++ methodsAmong own gs := by
  rw [methodsAmong, List.filterMap_append, List.filter_append, methodsAmong, methodsAmong]

/-- Adding operators adds nothing else, and each where it occurs first. -/
theorem addOperators_eq (c : ClassInfo) (listed ops : List Operator)
    (h : c.operators = listed.eraseDups) :
    c.addOperators ops = { c with operators := (listed ++ ops).eraseDups } := by
  induction ops generalizing c listed with
  | nil => rw [List.append_nil, ← h]; rfl
  | cons op ops ih =>
    have hmem : c.operators.contains op = true ↔ op ∈ listed := by
      rw [h, List.contains_iff_mem, List.mem_eraseDups]
    rw [addOperators, List.foldl_cons]
    split
    case isTrue hthere =>
      have hsame : c.operators = (listed ++ [op]).eraseDups := by
        rw [eraseDups_concat, if_pos (hmem.1 hthere), h]
      exact (ih c (listed ++ [op]) hsame).trans (by simp)
    case isFalse hnew =>
      have hmore : c.operators ++ [op] = (listed ++ [op]).eraseDups := by
        rw [eraseDups_concat, if_neg (mt hmem.2 hnew), h]
      exact (ih { c with operators := c.operators ++ [op] } (listed ++ [op]) hmore).trans (by simp)

/-- Adds a member function: as a method, as operators, or not at all. -/
def withFunction (c : ClassInfo) (f : MemberFunction) : ClassInfo :=
  match f.name with
  | .name s => c.addMethod ⟨s, f.params, f.doc⟩
  | .operation s => c.addOperators (Operator.ofMember s f.params.length)
  | _ => c

theorem addFunction_eq (c : ClassInfo) (p : Plain) (d : Declarator) :
    c.addFunction d p.doc = (p.function? d).elim c c.withFunction := by
  rw [addFunction, Plain.function?]
  cases d.function? with
  | none => rfl
  | some function =>
    obtain ⟨name, params⟩ := function
    cases name <;> rfl

namespace Lists

variable {own : String} {fs : List MemberFunction} {c : ClassInfo}

/-- A member function that adds no method and no operator. -/
theorem idle (h : Lists own fs c) {f : MemberFunction} (hmethod : methodsAmong own [f] = [])
    (hoperators : f.operators = []) : Lists own (fs ++ [f]) c where
  name := h.name
  order := by rw [methodsAmong_append, hmethod, List.append_nil, h.order]
  first := by
    rw [methodsAmong_append, hmethod, List.append_nil]
    exact h.first
  operators := by
    rw [List.flatMap_append, List.flatMap_singleton, hoperators, List.append_nil, h.operators]

/-- One method more. It is the first of its name, or there is one already. -/
theorem method (h : Lists own fs c) {f : MemberFunction} {m : MethodInfo}
    (hmethod : f.method? = some m) (hoperators : f.operators = []) :
    Lists own (fs ++ [f]) (c.addMethod m) := by
  have hoperation : c.operators = ((fs ++ [f]).flatMap (·.operators)).eraseDups := by
    rw [List.flatMap_append, List.flatMap_singleton, hoperators, List.append_nil, h.operators]
  by_cases hown : m.name = own
  · have hnone : methodsAmong own [f] = [] := by simp [methodsAmong, hmethod, hown]
    rw [addMethod, if_pos (.inl (hown.trans h.name.symm))]
    exact h.idle hnone hoperators
  have hone : methodsAmong own [f] = [m] := by simp [methodsAmong, hmethod, hown]
  have hthere : c.methods.any (·.name == m.name) = true ↔
      m.name ∈ (methodsAmong own fs).map (·.name) := by
    rw [← List.mem_eraseDups, ← h.order, List.any_eq_true, List.mem_map]
    simp only [beq_iff_eq]
  have hnot : ¬ m.name = c.name := fun heq => hown (heq.trans h.name)
  by_cases hold : m.name ∈ (methodsAmong own fs).map (·.name)
  · rw [addMethod, if_pos (.inr (hthere.2 hold))]
    refine ⟨h.name, ?_, fun k hk => ?_, hoperation⟩
    · rw [methodsAmong_append, hone, List.map_append, List.map_singleton, eraseDups_concat,
        if_pos hold, h.order]
    · rw [methodsAmong_append, List.find?_append, h.first k hk, Option.some_or]
  · rw [addMethod, if_neg (not_or.2 ⟨hnot, mt hthere.1 hold⟩)]
    refine ⟨h.name, ?_, fun k hk => ?_, hoperation⟩
    · rw [methodsAmong_append, hone, List.map_append, List.map_append, List.map_singleton,
        eraseDups_concat, if_neg hold, h.order]
    · rw [methodsAmong_append, hone, List.find?_append]
      rcases List.mem_append.1 hk with hk | hk
      · rw [h.first k hk, Option.some_or]
      · obtain rfl := List.mem_singleton.1 hk
        have hnone : (methodsAmong own fs).find? (·.name == k.name) = none :=
          List.find?_eq_none.2 fun other hmem heq =>
            hold (List.mem_map.2 ⟨other, hmem, beq_iff_eq.1 heq⟩)
        rw [hnone, Option.none_or, List.find?_cons_of_pos (by simp)]

/-- More operators, or none. -/
theorem operation (h : Lists own fs c) {f : MemberFunction} (hmethod : f.method? = none) :
    Lists own (fs ++ [f]) (c.addOperators f.operators) := by
  have hmethods : methodsAmong own (fs ++ [f]) = methodsAmong own fs := by
    simp [methodsAmong, hmethod]
  rw [addOperators_eq c _ _ h.operators]
  refine ⟨h.name, ?_, ?_, ?_⟩
  · rw [hmethods]
    exact h.order
  · rw [hmethods]
    exact h.first
  · rw [List.flatMap_append, List.flatMap_singleton]

/-- **One member function more.** -/
theorem withFunction (h : Lists own fs c) (f : MemberFunction) :
    Lists own (fs ++ [f]) (c.withFunction f) := by
  obtain ⟨name, params, doc, isStatic, isDefinition⟩ := f
  cases name with
  | name s => exact h.method rfl rfl
  | operation s => exact h.operation rfl
  | other | pointer | reference | function => exact h.idle rfl rfl

/-- What is listed of functions does not depend on the data members and the aliases. -/
theorem congr (h : Lists own fs c) {c' : ClassInfo} (hname : c'.name = c.name)
    (hmethods : c'.methods = c.methods) (hoperators : c'.operators = c.operators) :
    Lists own fs c' where
  name := hname.trans h.name
  order := by rw [hmethods, h.order]
  first := by rw [hmethods]; exact h.first
  operators := by rw [hoperators, h.operators]

theorem addAlias (h : Lists own fs c) (name target : String) :
    Lists own fs (c.addAlias name target) := by
  unfold ClassInfo.addAlias
  dsimp only
  split
  · exact h
  · exact h.congr rfl rfl rfl

/-- A declarator of a declaration without a body: a member function or none. -/
theorem addDeclarator (h : Lists own fs c) (inTemplate : Bool) (p : Plain) (d : Declarator) :
    Lists own (fs ++ (p.function? d).toList) (c.addDeclarator inTemplate p d) := by
  unfold ClassInfo.addDeclarator
  rw [addFunction_eq]
  cases hfunction : d.function? with
  | some function =>
    obtain ⟨f, hf⟩ : ∃ f, p.function? d = some f := by simp [Plain.function?, hfunction]
    rw [hf]
    exact h.withFunction f
  | none =>
    have hf : p.function? d = none := by simp [Plain.function?, hfunction]
    rw [hf, Option.toList_none, List.append_nil]
    simp only [Option.isSome_none, Bool.false_eq_true, if_false]
    split
    · split
      · exact h
      · exact h.congr rfl rfl rfl
    · exact h

theorem append_nil (h : Lists own fs c) : Lists own (fs ++ []) c := by rwa [List.append_nil]

/-- A list whose elements each add some functions adds them all. -/
theorem foldl {β : Type} {add : ClassInfo → β → ClassInfo} (functions : β → List MemberFunction)
    (hadd : ∀ {fs c} b, Lists own fs c → Lists own (fs ++ functions b) (add c b)) (bs : List β)
    (h : Lists own fs c) : Lists own (fs ++ bs.flatMap functions) (bs.foldl add c) := by
  induction bs generalizing fs c with
  | nil => simpa using h
  | cons b bs ih =>
    rw [List.flatMap_cons, ← List.append_assoc, List.foldl_cons]
    exact ih (hadd b h)

/-- The functions of a declaration are counted all or not at all. -/
theorem filter_isCounted (p : Plain) (ds : List Declarator) :
    (ds.filterMap p.function?).filter (·.isCounted) =
      if p.isDefinition || !p.isStatic then ds.filterMap p.function? else [] := by
  have hcounted : ∀ f ∈ ds.filterMap p.function?,
      f.isCounted = (p.isDefinition || !p.isStatic) := by
    intro f hf
    obtain ⟨d, -, hd⟩ := List.mem_filterMap.1 hf
    obtain ⟨function, -, rfl⟩ := Option.map_eq_some_iff.1 hd
    rfl
  split
  case isTrue htrue => exact List.filter_eq_self.2 fun f hf => (hcounted f hf).trans htrue
  case isFalse hfalse =>
    exact List.filter_eq_nil_iff.2 fun f hf => by rwa [hcounted f hf]

/-- **A public declaration adds the member functions that it declares and that are counted.**
Induction on the templates around it. -/
theorem addMember (h : Lists own fs c) (inTemplate : Bool) (d : Declaration) :
    Lists own (fs ++ d.functions.filter (·.isCounted)) (c.addMember inTemplate d) := by
  induction d generalizing inTemplate with
  | template params inner ih => exact ih true
  | other => exact h.append_nil
  | «alias» name target defined => exact (h.addAlias name target).append_nil
  | typedef target names defined =>
    have hnames := h.foldl (fun _ => []) (fun name h => (h.addAlias name target).append_nil) names
    rwa [List.flatMap_eq_nil_iff.2 fun _ _ => rfl] at hnames
  | plain p defined =>
    rw [ClassInfo.addMember, Declaration.functions, filter_isCounted]
    cases hdefinition : p.isDefinition with
    | true =>
      cases hdeclarators : p.declarators with
      | nil => exact h.append_nil
      | cons d more =>
        have hone : (p.declarators.take 1).filterMap p.function? = (p.function? d).toList := by
          rw [hdeclarators]
          cases hd : p.function? d <;> simp [hd]
        simp only [Bool.true_or, if_true, addFunction_eq]
        rw [← hdeclarators, hone]
        cases p.function? d with
        | none => exact h.append_nil
        | some f => exact h.withFunction f
    | false =>
      cases hstatic : p.isStatic with
      | true => exact h.append_nil
      | false =>
        have hall := h.foldl _ (fun d h => h.addDeclarator inTemplate p d) p.declarators
        rw [← List.filterMap_eq_flatMap_toList] at hall
        exact hall

/-- **The class lists the public member functions that are counted.** -/
theorem addItems (h : Lists own fs c) (isPublic : Bool) (items : List BodyItem) :
    Lists own (fs ++ (publicFunctions isPublic items).filter (·.isCounted))
      (c.addItems isPublic items) := by
  rw [addItems_eq, publicFunctions, List.filter_flatMap]
  exact h.foldl _ (fun d h => h.addMember false d) _

end Lists

/-! ### Operators -/

/-- Indexing serves for reading exactly if it serves for writing. -/
theorem getItem_mem_ofMember (name : String) (parameters : Nat) :
    Operator.getItem ∈ Operator.ofMember name parameters ↔
      Operator.setItem ∈ Operator.ofMember name parameters := by
  unfold Operator.ofMember
  dsimp only
  repeat' split
  all_goals simp

theorem getItem_mem_operators (f : MemberFunction) :
    Operator.getItem ∈ f.operators ↔ Operator.setItem ∈ f.operators := by
  unfold MemberFunction.operators
  split
  · exact getItem_mem_ofMember ..
  · simp

theorem Lists.mem_operators {own : String} {fs : List MemberFunction} {c : ClassInfo}
    (h : Lists own fs c) (op : Operator) : op ∈ c.operators ↔ ∃ f ∈ fs, op ∈ f.operators := by
  rw [h.operators, List.mem_eraseDups, List.mem_flatMap]

/-- The operators of a class are those of the member functions that are not static. -/
def OperatorsNonstatic (c : ClassInfo) (fs : List MemberFunction) : Prop :=
  ∀ op, op ∈ c.operators ↔ ∃ f ∈ fs, f.isStatic = false ∧ op ∈ f.operators

/-- **Static operators.** The operators of a class are those of the functions that are not static
exactly if one of these declares each operator that a static definition adds. -/
theorem operatorsNonstatic_iff {own : String} {fs : List MemberFunction} {c : ClassInfo}
    (h : Lists own (fs.filter (·.isCounted)) c) :
    c.OperatorsNonstatic fs ↔
      ∀ f ∈ fs, f.isStatic = true → f.isDefinition = true → ∀ op ∈ f.operators,
        ∃ g ∈ fs, g.isStatic = false ∧ op ∈ g.operators := by
  constructor
  · intro hall f hf _ hdefinition op hop
    have hcounted : f.isCounted = true := by simp [MemberFunction.isCounted, hdefinition]
    exact (hall op).1 ((h.mem_operators op).2 ⟨f, List.mem_filter.2 ⟨hf, hcounted⟩, hop⟩)
  · intro hall op
    rw [h.mem_operators]
    constructor
    · rintro ⟨f, hf, hop⟩
      obtain ⟨hf, hcounted⟩ := List.mem_filter.1 hf
      cases hstatic : f.isStatic with
      | false => exact ⟨f, hf, hstatic, hop⟩
      | true =>
        have hdefinition : f.isDefinition = true := by
          simpa [MemberFunction.isCounted, hstatic] using hcounted
        exact hall f hf hstatic hdefinition op hop
    · rintro ⟨f, hf, hstatic, hop⟩
      have hcounted : f.isCounted = true := by simp [MemberFunction.isCounted, hstatic]
      exact ⟨f, List.mem_filter.2 ⟨hf, hcounted⟩, hop⟩

/-- What the public member functions of a class body make of the class. -/
structure ListsPublic (own : String) (fs : List MemberFunction) (c : ClassInfo) : Prop where
  /-- Methods and operators, in the order in which they occur first. -/
  lists : Lists own (fs.filter (·.isCounted)) c
  distinct : (c.methods.map (·.name)).Nodup
  notOwn : own ∉ c.methods.map (·.name)
  distinctOperators : c.operators.Nodup
  indexing : Operator.getItem ∈ c.operators ↔ Operator.setItem ∈ c.operators
  /-- The operators are those of the functions that are not static, unless a static definition adds
  one. -/
  nonstatic : c.OperatorsNonstatic fs ↔
    ∀ f ∈ fs, f.isStatic = true → f.isDefinition = true → ∀ op ∈ f.operators,
      ∃ g ∈ fs, g.isStatic = false ∧ op ∈ g.operators

theorem Lists.listsPublic {own : String} {fs : List MemberFunction} {c : ClassInfo}
    (h : Lists own (fs.filter (·.isCounted)) c) : ListsPublic own fs c where
  lists := h
  distinct := by
    rw [h.order]
    exact nodup_eraseDups _
  notOwn := by
    rw [h.order, List.mem_eraseDups]
    intro hown
    obtain ⟨m, hm, hname⟩ := List.mem_map.1 hown
    simpa [hname] using (List.mem_filter.1 hm).2
  distinctOperators := by
    rw [h.operators]
    exact nodup_eraseDups _
  indexing := by
    rw [h.mem_operators, h.mem_operators]
    simp only [getItem_mem_operators]
  nonstatic := operatorsNonstatic_iff h

/-- **A class is what its public members declare.** The hidden declarations of its body can be taken
out, as entries of the body and as text, without a trace. The methods have different names, none of
them the name of the class, and each is the first function of its name. The operators are different,
reading by index comes with writing, and they are those of the member functions that are counted. -/
theorem class_of_public_members (head : ClassInfo)
    (hfresh : head.methods = [] ∧ head.operators = []) (isPublic : Bool) (items : List BodyItem) :
    head.addItems isPublic (withoutHidden isPublic items) = head.addItems isPublic items ∧
    (∀ space template name bases body doc, Flat body →
      classInfo space template name isPublic bases (publicBody isPublic body) doc =
        classInfo space template name isPublic bases body doc) ∧
    ListsPublic head.name (publicFunctions isPublic items) (head.addItems isPublic items) := by
  refine ⟨?_, fun space template name bases body doc hflat => ?_, ?_⟩
  · rw [addItems_eq, addItems_eq, publicMembers_withoutHidden]
  · rw [classInfo, classInfo, bodyItems_publicBody isPublic hflat]
    simp only [addItems_eq, publicMembers_withoutHidden]
  · have hstart : Lists head.name [] head :=
      ⟨rfl, by rw [hfresh.1]; rfl, by rw [hfresh.1]; nofun, hfresh.2⟩
    exact (hstart.addItems isPublic items).listsPublic

/-- A body with a hidden method and a hidden operator between public ones. -/
def mixedBody : List Tree :=
  trees (Text.encode
    "int f(int x); private: /// none\nint g(); int operator*(); public: F(); static int h() \x7b\x7d")

/-- The body is read as it is without what is hidden, and gives two methods. -/
theorem class_of_mixedBody :
    classInfo none none "F" true [] (publicBody true mixedBody) none =
      classInfo none none "F" true [] mixedBody none ∧
    ListsPublic "F" (publicFunctions true (bodyItems mixedBody))
      (addItems true { name := "F", space := none } (bodyItems mixedBody)) ∧
    (addItems true { name := "F", space := none } (bodyItems mixedBody)).methods.map (·.name) =
      ["f", "h"] := by
  obtain ⟨-, htext, hlists⟩ := class_of_public_members { name := "F", space := none } ⟨rfl, rfl⟩
    true (bodyItems mixedBody)
  exact ⟨htext _ _ _ _ _ _ (by decide +kernel), hlists, by decide +kernel⟩

/-- A body with a static operator that is defined. -/
def staticBody : List Tree := trees (Text.encode "static int operator()(int x) { return x; }")

/-- A static operator that is defined is an operator of the class. -/
theorem not_operatorsNonstatic_staticBody :
    (Reflection.ofHeader
        (Text.encode "struct F { static int operator()(int x) { return x; } };")).toOption =
      some { classes := [{ name := "F", space := none, operators := [.call] }] } ∧
    ¬ OperatorsNonstatic (addItems true { name := "F", space := none } (bodyItems staticBody))
      (publicFunctions true (bodyItems staticBody)) := by
  have hlisted : Operator.call ∈
      (addItems true { name := "F", space := none } (bodyItems staticBody)).operators := by
    decide +kernel
  have hstatic : (publicFunctions true (bodyItems staticBody)).all (·.isStatic) = true := by
    decide +kernel
  refine ⟨by decide +kernel, fun hall => ?_⟩
  obtain ⟨f, hf, hfree, -⟩ := (hall .call).1 hlisted
  rw [List.all_eq_true.1 hstatic f hf] at hfree
  cases hfree

end ClassInfo
end Bindery
