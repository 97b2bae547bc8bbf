/-
# What a call goes to

A request is made from a call that was asked for (`Asked`). What the call goes to (`Callee`) decides
its key and its target together with the types of its arguments, and nothing else does
(`Asked.makes_of_request`):

| callee | target | signature |
| --- | --- | --- |
| constructor of `T` | `new T` | `new T(...)` |
| method `m` of `T` | `m` of the first argument | `T.m(...)` |
| function | its qualified name | its qualified name and types |
| operator of `T` | the operator on the first argument | `T.TAG_(...)` |

A request that was made can be wrapped (`Callee.Makes.source_eq_ok`): a receiver is there, and an
operator has as many operands as it takes.
-/

import Bindery.Proofs.Call.Marshalled
import Bindery.Proofs.Outcome
import Bindery.Proofs.Source.Operands
import Bindery.Session.Request

namespace Bindery

variable {ω : Type}

/-- A call that is asked for. -/
inductive Asked (ω : Type) where
  | construct (target : Value ω) (args : List (Arg ω))
  | method (receiver : Value ω) (name : String) (args : List (Arg ω)) (options : CallOptions)
  | function (name : String) (args : List (Arg ω)) (options : CallOptions)
  | operator (receiver : Value ω) (op : Operator) (args : List (Arg ω))

namespace Asked

/-- The request for a call, unless it is refused. -/
def request (m : Catalog) : Asked ω → Except SessionError Request
  | construct target args => Request.construct m target args
  | method receiver name args options => Request.method m receiver name args options
  | function name args options => Request.function m name args options
  | operator receiver op args => Request.operator m receiver op args

end Asked

/-- What a call goes to. -/
inductive Callee where
  | constructor (cppType : String)
  | method (cppType name : String) (templates : Option (List TemplateArg))
  | function (name : String) (space : Option String) (templates : Option (List TemplateArg))
  | operator (cppType : String) (op : Operator)

namespace Callee

/-- The type of the receiver, if there is one. -/
def receiver? : Callee → Option String
  | constructor _ => none
  | method cppType _ _ => some cppType
  | function _ _ _ => none
  | operator cppType _ => some cppType

/-- The signature of a call, from the types of the arguments behind a receiver. -/
def signature (types : List String) : Callee → Signature
  | constructor cppType => .constructor cppType types
  | method cppType name templates =>
    { Signature.method cppType name types with templateArgs := templates }
  | function name space templates => .function name space types templates
  | operator cppType op => .operator cppType op types

/-- What a wrapper of the call has to call. -/
def target : Callee → Source.Target
  | constructor cppType => .constructor cppType
  | method _ name templates => .method (Request.methodSpelling name templates)
  | function name space templates => .function (templatedName name space templates)
  | operator _ op => .operator op

/-- An operator takes a number of operands. -/
def Takes (n : Nat) : Callee → Prop
  | constructor _ => True
  | method _ _ _ => True
  | function _ _ _ => True
  | operator _ op => ∀ k ∈ op.arity, k = n

/-- A request calls this, with arguments of some types behind the receiver. -/
structure Makes (c : Callee) (types : List String) (r : Request) : Prop where
  key : r.key = (c.signature types).key
  target : r.target = c.target
  argumentTypes : r.args.types = c.receiver?.toList ++ types
  uniform : r.args.Uniform
  takes : c.Takes types.length

end Callee

/-! ### Requests -/

namespace Asked

/-- What a call goes to; a receiver that is no object has nothing to call. -/
def callee? (m : Catalog) : Asked ω → Option Callee
  | construct (.type t) _ => some (.constructor t.cppType)
  | construct target _ => (Request.receiverType target).toOption.map (.operator · .call)
  | method receiver name _ options =>
    (Request.receiverType receiver).toOption.map (.method · name options.templateArgs)
  | function name _ options =>
    some (.function name (Request.functionSpace m name options) options.templateArgs)
  | operator receiver op _ => (Request.receiverType receiver).toOption.map (.operator · op)

end Asked

namespace Request

/-- A receiver is an object or a view; its type stands before the types that go into the key. -/
theorem marshalWith_spec {receiver : Value ω} {type : String} {args : List (Arg ω)}
    {n : Marshalled} (htype : receiverType receiver = .ok type)
    (h : marshalWith receiver args = .ok n) :
    n.types = type :: argumentTypes n ∧ n.Uniform ∧ (argumentTypes n).length = args.length := by
  have hreceiver : (∀ p, receiver ≠ .primitive p) ∧ receiver.cppType = .ok type := by
    cases receiver with
    | primitive p => exact absurd htype nofun
    | type t => exact absurd htype nofun
    | view v => exact ⟨nofun, congrArg Except.ok (Except.ok.inj htype)⟩
    | object o => exact ⟨nofun, congrArg Except.ok (Except.ok.inj htype)⟩
  obtain ⟨rest, hrest, htypes, -, huniform⟩ :=
    Marshalled.withReceiver_eq_ok hreceiver.1 hreceiver.2 (eq_ok_of_mapError_eq_ok h)
  rw [argumentTypes, htypes, List.tail_cons]
  exact ⟨rfl, huniform, Marshalled.length_of_ofArgs hrest⟩

theorem makes_of_constructType {t : TypeObject} {args : List (Arg ω)} {r : Request}
    (h : constructType t args = .ok r) : ∃ types, (Callee.constructor t.cppType).Makes types r := by
  obtain ⟨n, hn, hr⟩ := exists_of_bind_eq_ok h
  obtain rfl := Except.ok.inj hr
  exact ⟨n.types, rfl, rfl, rfl, Marshalled.uniform_of_ofArgs (eq_ok_of_mapError_eq_ok hn), trivial⟩

theorem makes_of_operator {m : Catalog} {receiver : Value ω} {op : Operator} {args : List (Arg ω)}
    {r : Request} (h : operator m receiver op args = .ok r) :
    ∃ type types, receiverType receiver = .ok type ∧ (Callee.operator type op).Makes types r := by
  obtain ⟨type, htype, h⟩ := exists_of_bind_eq_ok h
  obtain ⟨_, harity, h⟩ := exists_of_bind_eq_ok (of_guard_eq_ok h)
  obtain ⟨n, hn, hr⟩ := exists_of_bind_eq_ok h
  obtain rfl := Except.ok.inj hr
  obtain ⟨htypes, huniform, hlength⟩ := marshalWith_spec htype hn
  refine ⟨type, argumentTypes n, htype, rfl, rfl, htypes, huniform, fun k hk => ?_⟩
  rw [checkArity, Option.mem_def.1 hk] at harity
  rw [hlength]
  by_cases heq : k = args.length
  · exact heq
  · simp only [if_neg heq] at harity
    exact absurd harity nofun

theorem makes_of_method {m : Catalog} {receiver : Value ω} {name : String} {args : List (Arg ω)}
    {options : CallOptions} {r : Request} (h : method m receiver name args options = .ok r) :
    ∃ type types, receiverType receiver = .ok type ∧
      (Callee.method type name options.templateArgs).Makes types r := by
  -- only an object can be refused a method, and behind that all receivers are alike
  have hrest : (do
      let type ← receiverType receiver
      let n ← marshalWith receiver args
      let signature := Signature.method type name (argumentTypes n)
      return {
        key := { signature with templateArgs := options.templateArgs : Signature }.key
        kind := .kernel
        target := .method (methodSpelling name options.templateArgs)
        args := n
        own := options.own : Request }) = Except.ok r := by
    unfold method at h
    cases receiver with
    | object o => exact of_guard_eq_ok h
    | primitive p => exact h
    | view v => exact h
    | type t => exact h
  obtain ⟨type, htype, hrest⟩ := exists_of_bind_eq_ok hrest
  obtain ⟨n, hn, hr⟩ := exists_of_bind_eq_ok hrest
  obtain rfl := Except.ok.inj hr
  obtain ⟨htypes, huniform, -⟩ := marshalWith_spec htype hn
  exact ⟨type, argumentTypes n, htype, rfl, rfl, htypes, huniform, trivial⟩

theorem makes_of_function {m : Catalog} {name : String} {args : List (Arg ω)}
    {options : CallOptions} {r : Request} (h : function m name args options = .ok r) :
    ∃ types, (Callee.function name (functionSpace m name options) options.templateArgs).Makes
      types r := by
  obtain ⟨n, hn, hr⟩ := exists_of_bind_eq_ok h
  obtain rfl := Except.ok.inj hr
  exact ⟨n.types, rfl, rfl, rfl, Marshalled.uniform_of_ofArgs (eq_ok_of_mapError_eq_ok hn), trivial⟩

end Request

/-- **A request makes the call that was asked for.** -/
theorem Asked.makes_of_request {m : Catalog} {a : Asked ω} {r : Request}
    (h : a.request m = .ok r) : ∃ c types, a.callee? m = some c ∧ c.Makes types r := by
  cases a with
  | construct target args =>
    cases target with
    | type t =>
      obtain ⟨types, hmakes⟩ := Request.makes_of_constructType h
      exact ⟨_, types, rfl, hmakes⟩
    | object o =>
      have hcall : (if m.hasOperator o.className .call then
          Request.operator m (.object o) .call args
        else .error (.reconstruction o.className)) = .ok r := h
      by_cases hop : m.hasOperator o.className .call
      · rw [if_pos hop] at hcall
        obtain ⟨type, types, htype, hmakes⟩ := Request.makes_of_operator hcall
        obtain rfl := Except.ok.inj htype
        exact ⟨_, types, rfl, hmakes⟩
      · rw [if_neg hop] at hcall
        exact absurd hcall nofun
    | primitive p => exact absurd h nofun
    | view v => exact absurd h nofun
  | method receiver name args options =>
    obtain ⟨type, types, htype, hmakes⟩ := Request.makes_of_method h
    exact ⟨_, types, by rw [callee?, htype]; rfl, hmakes⟩
  | function name args options =>
    obtain ⟨types, hmakes⟩ := Request.makes_of_function h
    exact ⟨_, types, rfl, hmakes⟩
  | operator receiver op args =>
    obtain ⟨type, types, htype, hmakes⟩ := Request.makes_of_operator h
    exact ⟨_, types, by rw [callee?, htype]; rfl, hmakes⟩

/-! ### Wrappers of requests -/

namespace Callee

/-- A request has as many arguments as its target accepts. -/
theorem Makes.accepts {c : Callee} {types : List String} {r : Request} (h : c.Makes types r) :
    r.target.Accepts r.args.specs.length := by
  have hlength : r.args.specs.length = c.receiver?.toList.length + types.length := by
    rw [← List.length_append, ← h.argumentTypes, h.uniform.types, List.length_map]
  rw [h.target, hlength]
  cases c with
  | constructor | function => trivial
  | method => exact Nat.le_add_right 1 _
  | operator cppType op =>
    have htakes : ∀ k ∈ op.arity, k = types.length := h.takes
    rw [Nat.add_comm]
    exact Source.accepts_operator htakes

/-- **A request can be wrapped,** in any context. -/
theorem Makes.source_eq_ok {c : Callee} {types : List String} {r : Request} (h : c.Makes types r)
    (context : Context) : ∃ unit, r.source context = .ok unit :=
  Source.exists_wrapper_iff.2 h.accepts

end Callee
end Bindery
