/-
# What a key does not say

An artifact that was built for one call serves every call with its hash. For this to be right, the
wrapper that would be written for the other call has to be the same, and has to take its arguments
in the same ways. That is so exactly for calls with one target, the same types and the same
passings (`Asked.wrapper_eq_iff_of_hash_eq`).

| | decided by the key |
| --- | --- |
| target | if names and types are well spelled |
| types of the arguments | if names and types are well spelled |
| passings of the arguments | no |

A key has the types of the arguments and not how they are passed. A pointer to `int` that a call
returns becomes an object of type `int`, which is passed by reference; the integer `5` has the same
type and is passed by value (`Asked.key_of_returned_pointer`).
-/

import Bindery.Native.Script
import Bindery.Proofs.Call.SignatureText
import Bindery.Proofs.Cpp.NormalForm
import Bindery.Proofs.Session.Callee
import Bindery.Proofs.Source.Wrapper
import Bindery.Proofs.Store.Steps
import Bindery.Proofs.Text.Marks
import Bindery.Session.Cast

namespace Bindery

variable {ω : Type}

/-- A pointer into storage that the library keeps becomes a borrowed value, which needs nothing
outside once its class is known. -/
theorem Session.exec_castHandle_borrowed {σ L : Type} (session : Session σ L) {b : Bench σ L}
    {h : Returned} {d : Binding L} (hptr : h.ptr ≠ 0) (hpointer : h.isPointer = true)
    (hclass : b.cache.class? (Spelling.normalize h.typeName) = some d) :
    exec (session.castHandle h false) b =
      (.ok (.ofHandle (Spelling.normalize h.typeName) h.extents (.borrowed h.ptr)), b) := by
  rw [← Spelling.normalize_normalize] at hclass
  rw [castHandle, if_neg hptr]
  refine (exec_bind_ok (Cache.exec_ensureClass_of_class? hclass)).trans ?_
  rw [hpointer]
  rfl

/-! ### Types and passings -/

/-- The ways in which a request passes its arguments. -/
def Request.passings (r : Request) : List Passing := r.args.specs.map (·.passing)

theorem ArgSpec.eq_of_type_eq {a b : ArgSpec} (hpassing : a.passing = b.passing)
    (htype : a.type = b.type) : a = b := by
  obtain ⟨cppType, passing⟩ := a
  obtain ⟨cppType', passing'⟩ := b
  obtain rfl : passing = passing' := hpassing
  have hcpp : cppType = cppType' := by
    cases passing with
    | value | reference | text => exact htype
    | pointer | pointerToValue =>
      have hchars := congrArg String.toList htype
      simp only [ArgSpec.type, String.toList_append] at hchars
      exact String.toList_inj.1 (List.append_cancel_right hchars)
  rw [hcpp]

/-- An argument of a wrapper is its type in the signature and its passing. -/
theorem ArgSpec.eq_of_types_eq {xs ys : List ArgSpec}
    (hpassing : xs.map (·.passing) = ys.map (·.passing))
    (htype : xs.map ArgSpec.type = ys.map ArgSpec.type) : xs = ys := by
  induction xs generalizing ys with
  | nil => exact (List.map_eq_nil_iff.1 hpassing.symm).symm
  | cons a xs ih =>
    cases ys with
    | nil => exact absurd hpassing (List.cons_ne_nil _ _)
    | cons b ys =>
      obtain ⟨hp, hps⟩ := List.cons.inj hpassing
      obtain ⟨ht, hts⟩ := List.cons.inj htype
      rw [ArgSpec.eq_of_type_eq hp ht, ih hps hts]

namespace Callee

/-- **What a wrapper is written for.** Two requests under one hash have one wrapper, with the same
passings, exactly if they have the same target, types and passings. -/
theorem wrapper_eq_iff {c d : Callee} {types types' : List String} {r s : Request}
    (hr : c.Makes types r) (hs : d.Makes types' s) (hash : r.key.hash = s.key.hash) :
    (∀ context, r.source context = s.source context) ∧ r.passings = s.passings ↔
      r.target = s.target ∧ r.args.types = s.args.types ∧ r.passings = s.passings := by
  constructor
  · rintro ⟨hsource, hpassings⟩
    obtain ⟨unit, hunit⟩ := hr.source_eq_ok {}
    have hunit' := (hsource {}).symm.trans hunit
    obtain ⟨htarget, hspecs⟩ := Source.eq_of_wrapper_eq hunit hunit' hpassings hr.uniform.regular
      hs.uniform.regular
    refine ⟨htarget, ?_, hpassings⟩
    rw [hr.uniform.types, hs.uniform.types]
    exact congrArg (List.map ArgSpec.type) hspecs
  · rintro ⟨htarget, htypes, hpassings⟩
    rw [hr.uniform.types, hs.uniform.types] at htypes
    have hspecs := ArgSpec.eq_of_types_eq hpassings htypes
    refine ⟨fun context => ?_, hpassings⟩
    rw [Request.source, Request.source, hash, htarget, hspecs]

/-! ### What the text of a signature decides -/

/-- What the text of a call is unambiguous for: its signature is well spelled, a method has a name
without a dot, and the type of an operator's receiver is not written like a construction. -/
structure Spelled (types : List String) (c : Callee) : Prop where
  signature : (c.signature types).Spelled
  method : ∀ cppType name templates, c = method cppType name templates → '.' ∉ name.toList
  operator : ∀ cppType op, c = operator cppType op → ¬ "new ".toList <+: cppType.toList

/-- A name behind a type and a dot tells both. -/
theorem eq_of_dotted {type type' name name' : String} (hname : '.' ∉ name.toList)
    (hname' : '.' ∉ name'.toList) (h : type ++ "." ++ name = type' ++ "." ++ name') :
    type = type' ∧ name = name' := by
  have hchars := congrArg String.toList h
  simp only [String.toList_append, List.append_assoc] at hchars
  obtain ⟨htype, hrest⟩ := eq_of_append_last hname hname' hchars
  exact ⟨String.toList_inj.1 htype, String.toList_inj.1 hrest⟩

theorem dot_notMem_tag (op : Operator) : '.' ∉ op.tag.toList := by
  cases op <;> decide

theorem tag_injective {op op' : Operator} (h : op.tag = op'.tag) : op = op' := by
  cases op <;> cases op' <;> first | rfl | exact absurd h (by decide)

theorem templateArgsText_congr {a b : Option (List TemplateArg)}
    (h : templateTexts a = templateTexts b) : templateArgsText a = templateArgsText b := by
  rw [← String.toList_inj, toList_templateArgsText, toList_templateArgsText, h]

theorem methodSpelling_congr (name : String) {a b : Option (List TemplateArg)}
    (h : templateTexts a = templateTexts b) :
    Request.methodSpelling name a = Request.methodSpelling name b := by
  cases a with
  | none =>
    cases b with
    | none => rfl
    | some ys => exact absurd h nofun
  | some xs =>
    cases b with
    | none => exact absurd h nofun
    | some ys =>
      have htext : templateArgsText (some xs) = templateArgsText (some ys) :=
        templateArgsText_congr h
      simp only [Request.methodSpelling, templatedName, htext]

/-- A construction is not written like an operator. -/
theorem new_ne_operator {cppType cppType' : String} {op : Operator}
    (hnew : ¬ "new ".toList <+: cppType'.toList) : "new " ++ cppType ≠ cppType' ++ "." ++ op.tag := by
  intro h
  have hchars := congrArg String.toList h
  simp only [String.toList_append] at hchars
  have hprefix : "new ".toList <+: cppType'.toList ++ ".".toList ++ op.tag.toList :=
    ⟨cppType.toList, hchars⟩
  have hdot : '.' ∉ "new ".toList := by decide
  rcases List.prefix_or_prefix_of_prefix hprefix (List.prefix_append _ _) with h' | h'
  · rcases List.prefix_concat_iff.1 h' with heq | h'
    · rw [heq] at hdot
      exact hdot (List.mem_append_right _ (List.mem_singleton_self _))
    · exact hnew h'
  · exact hdot (h'.subset (List.mem_append_right _ (List.mem_singleton_self _)))

/-- Two calls of one kind. Constructing with an object applies its call operator. -/
inductive Alike : Callee → Callee → Prop
  | construct (cppType cppType') : Alike (constructor cppType) (constructor cppType')
  | constructOperator (cppType cppType' op) : Alike (constructor cppType) (operator cppType' op)
  | operatorConstruct (cppType op cppType') : Alike (operator cppType op) (constructor cppType')
  | operator (cppType op cppType' op') : Alike (operator cppType op) (operator cppType' op')
  | method (cppType name templates cppType' name' templates') :
    Alike (method cppType name templates) (method cppType' name' templates')
  | function (name space templates name' space' templates') :
    Alike (function name space templates) (function name' space' templates')

/-- **A well spelled text decides target and types** among the calls of one kind. -/
theorem eq_of_text_eq {c d : Callee} {types types' : List String} (alike : c.Alike d)
    (hc : c.Spelled types) (hd : d.Spelled types')
    (h : (c.signature types).text = (d.signature types').text) :
    c.target = d.target ∧ c.receiver?.toList ++ types = d.receiver?.toList ++ types' := by
  obtain ⟨hname, htypes, htemplates⟩ := Signature.eq_of_text_eq hc.signature hd.signature h
  cases alike with
  | construct cppType cppType' =>
    obtain rfl : types = types' := htypes
    have hchars := congrArg String.toList (show "new " ++ cppType = "new " ++ cppType' from hname)
    simp only [String.toList_append] at hchars
    rw [String.toList_inj.1 (List.append_cancel_left hchars)]
    exact ⟨rfl, rfl⟩
  | constructOperator cppType cppType' op =>
    exact absurd hname (new_ne_operator (hd.operator cppType' op rfl))
  | operatorConstruct cppType op cppType' =>
    exact absurd hname.symm (new_ne_operator (hc.operator cppType op rfl))
  | operator cppType op cppType' op' =>
    obtain rfl : types = types' := htypes
    obtain ⟨rfl, htag⟩ := eq_of_dotted (dot_notMem_tag op) (dot_notMem_tag op') hname
    rw [tag_injective htag]
    exact ⟨rfl, rfl⟩
  | method cppType name templates cppType' name' templates' =>
    obtain rfl : types = types' := htypes
    obtain ⟨rfl, rfl⟩ := eq_of_dotted (hc.method cppType name templates rfl)
      (hd.method cppType' name' templates' rfl) hname
    refine ⟨?_, rfl⟩
    rw [target, target, methodSpelling_congr name (a := templates) (b := templates') htemplates]
  | function name space templates name' space' templates' =>
    obtain rfl : types = types' := htypes
    refine ⟨?_, rfl⟩
    have hqualified : Spelling.qualify space name = Spelling.qualify space' name' := hname
    rw [target, target, templatedName, templatedName, hqualified,
      templateArgsText_congr (a := templates) (b := templates') htemplates]

end Callee

namespace Asked

/-- Two calls are asked for in the same way. -/
def Alike : Asked ω → Asked ω → Prop
  | construct _ _, construct _ _ => True
  | method _ _ _ _, method _ _ _ _ => True
  | function _ _ _, function _ _ _ => True
  | operator _ _ _, operator _ _ _ => True
  | _, _ => False

/-- Constructing calls a constructor, or the call operator of an object. -/
theorem callee?_construct {m : Catalog} {target : Value ω} {args : List (Arg ω)} {c : Callee}
    (h : (construct target args).callee? m = some c) :
    (∃ cppType, c = .constructor cppType) ∨ ∃ cppType, c = .operator cppType .call := by
  cases target with
  | type t => exact .inl ⟨t.cppType, (Option.some.inj h).symm⟩
  | object o => exact .inr ⟨o.cppType, (Option.some.inj h).symm⟩
  | view v => exact .inr ⟨v.cppType, (Option.some.inj h).symm⟩
  | primitive p => exact absurd h nofun

theorem Alike.callee {m : Catalog} {a b : Asked ω} {c d : Callee} (alike : a.Alike b)
    (hc : a.callee? m = some c) (hd : b.callee? m = some d) : c.Alike d := by
  cases a <;> cases b <;> try exact absurd alike id
  case construct.construct =>
    rcases callee?_construct hc with ⟨T, rfl⟩ | ⟨T, rfl⟩ <;>
      rcases callee?_construct hd with ⟨U, rfl⟩ | ⟨U, rfl⟩
    · exact .construct T U
    · exact .constructOperator T U .call
    · exact .operatorConstruct T .call U
    · exact .operator T .call U .call
  case method.method =>
    obtain ⟨T, -, rfl⟩ := Option.map_eq_some_iff.1 hc
    obtain ⟨U, -, rfl⟩ := Option.map_eq_some_iff.1 hd
    exact .method ..
  case function.function =>
    obtain rfl := Option.some.inj hc
    obtain rfl := Option.some.inj hd
    exact .function ..
  case operator.operator =>
    obtain ⟨T, -, rfl⟩ := Option.map_eq_some_iff.1 hc
    obtain ⟨U, -, rfl⟩ := Option.map_eq_some_iff.1 hd
    exact .operator ..

/-- A call is well spelled, given the types of all its arguments. -/
def Spelled (m : Catalog) (a : Asked ω) (types : List String) : Prop :=
  ∀ c ∈ a.callee? m, c.Spelled (types.drop c.receiver?.toList.length)

/-- **A key says everything but the passings.** Let two calls of one kind have one hash, and let
the hash tell their texts apart. One wrapper serves both, and takes the arguments in the same
ways, exactly if they have the same target, the same types and the same passings. If both are well
spelled, they have the same target and the same types. -/
theorem wrapper_eq_iff_of_hash_eq {m : Catalog} {a b : Asked ω} {r s : Request}
    (hr : a.request m = .ok r) (hs : b.request m = .ok s) (alike : a.Alike b)
    (injective : r.key.hash = s.key.hash → r.key.signature = s.key.signature)
    (hash : r.key.hash = s.key.hash) :
    ((∀ context, r.source context = s.source context) ∧ r.passings = s.passings ↔
      r.target = s.target ∧ r.args.types = s.args.types ∧ r.passings = s.passings) ∧
    (a.Spelled m r.args.types → b.Spelled m s.args.types →
      r.target = s.target ∧ r.args.types = s.args.types) := by
  obtain ⟨c, types, hc, hcr⟩ := makes_of_request hr
  obtain ⟨d, types', hd, hds⟩ := makes_of_request hs
  refine ⟨Callee.wrapper_eq_iff hcr hds hash, fun ha hb => ?_⟩
  have hca := ha c hc
  have hdb := hb d hd
  rw [hcr.argumentTypes, List.drop_left] at hca
  rw [hds.argumentTypes, List.drop_left] at hdb
  have htext : (c.signature types).text = (d.signature types').text := by
    have hsignature := injective hash
    rwa [hcr.key, hds.key] at hsignature
  rw [hcr.target, hds.target, hcr.argumentTypes, hds.argumentTypes]
  exact Callee.eq_of_text_eq (alike.callee hc hd) hca hdb htext

/-- A call of a function `f` with one argument. -/
def callF (arg : Arg Unit) : Asked Unit := .function "f" [arg] {}

/-- A catalog that lists nothing. -/
def noCatalog : Catalog := ⟨[], [], [], [], []⟩

/-- The hypotheses of `wrapper_eq_iff_of_hash_eq` are satisfiable: a literal and a primitive value
of one type are served by one wrapper. -/
theorem wrapper_eq_of_literal_and_value :
    ∃ r s, (callF (.owned (.int 5))).request noCatalog = .ok r ∧
      (callF (.value (.primitive (.int 7)))).request noCatalog = .ok s ∧
      r.key.hash = s.key.hash ∧ ∀ context, r.source context = s.source context := by
  refine ⟨_, _, rfl, rfl, rfl, ?_⟩
  have hiff := wrapper_eq_iff_of_hash_eq (m := noCatalog) (a := callF (.owned (.int 5)))
    (b := callF (.value (.primitive (.int 7)))) rfl rfl trivial (fun _ => rfl) rfl
  exact (hiff.1.2 ⟨rfl, rfl, rfl⟩).1

/-- What a returned `int *` becomes. -/
def returnedPointer : Value ω := .ofHandle (Spelling.normalize "int") [] (.borrowed 4096)

/-- A function called with a returned `int *` and one called with the integer `5` have one key.
Their wrappers differ in every context: one takes a reference and the other a value. -/
theorem key_of_returned_pointer :
    (∀ (session : Session Script.Stage String) (b : Bench Script.Stage String),
      (b.cache.class? "int").isSome →
        exec (session.castHandle ⟨4096, true, "int", []⟩ false) b = (.ok returnedPointer, b)) ∧
    ∃ r s, (callF (.value returnedPointer)).request noCatalog = .ok r ∧
      (callF (.owned (.int 5))).request noCatalog = .ok s ∧
      r.key = s.key ∧ r.passings = [.reference] ∧ s.passings = [.value] ∧
      ∀ context, r.source context ≠ s.source context := by
  constructor
  · intro session b hclass
    obtain ⟨d, hd⟩ := Option.isSome_iff_exists.1 hclass
    exact Session.exec_castHandle_borrowed session (by decide) rfl hd
  · refine ⟨_, _, rfl, rfl, rfl, rfl, rfl, fun context h => ?_⟩
    have hitem := (List.cons.inj (congrArg Source.Unit.items (Except.ok.inj h))).1
    have hbody := congrArg Source.Function.body (Source.Item.function.inj hitem)
    obtain ⟨-, hbinding, -⟩ := Source.Stmt.declare.inj (List.cons.inj hbody).1
    exact absurd hbinding nofun

end Asked
end Bindery
