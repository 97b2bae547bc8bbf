/-
# Demands

Whatever is asked of a session (`Demand`), the session checks it first, by what it knows, and then
carries it out at its bench (`Session.plan`). The check can only refuse (`Session.refuses_plan`);
what fails later fails with an error of the cache (`Session.exec_answer`).

A call that is carried out is looked up and counted (`Session.supply`), and then run. All that is
done at the bench beside the lookup is put together from few things (`Session.Does`):

| done | at |
| --- | --- |
| a class is come by | reading and writing a field, naming a class, casting a result |
| something happens in the world | running a call, reading and writing a field, owning an object |
| an error is raised | what a call or a field reports |

So what these do to a bench, and how they fail, tells what a demand does behind its lookup, and how
it fails.
-/

import Bindery.Proofs.Session.Callee
import Bindery.Proofs.Store.Exec
import Bindery.Session.Calls

namespace Bindery

variable {σ L : Type}

namespace Action

variable {ε ε' α : Type}

theorem exec_wrapError (wrap : ε → ε') (f : Action σ L ε α) (b : Bench σ L) :
    exec (wrapError wrap f) b = ((exec f b).1.mapError wrap, (exec f b).2) := rfl

/-- What is put together fails as its parts do. -/
theorem wrapError_bind {β : Type} (wrap : ε → ε') (f : Action σ L ε α) (g : α → Action σ L ε β) :
    wrapError wrap (f >>= g) = (wrapError wrap f >>= fun a => wrapError wrap (g a)) := by
  have hexec : ∀ b, exec (wrapError wrap (f >>= g)) b =
      exec (wrapError wrap f >>= fun a => wrapError wrap (g a)) b := by
    intro b
    simp only [exec_wrapError, exec_bind]
    rcases exec f b with ⟨_ | a, b'⟩ <;> rfl
  exact funext hexec

end Action

/-- What can be asked of a session. -/
inductive Demand (ω : Type) where
  | call (a : Asked ω)
  | getField (receiver : Value ω) (field : String)
  | setField (receiver : Value ω) (field : String) (arg : Arg ω)
  | classType (name : String) (args : Option (List TemplateArg))
  | viewType (spec : View)
  | enumValue (typeName enumerator : String)
  | aliasType (className name : String)

/-- The error is that something was refused, and not that it failed. -/
def SessionError.isRefusal : SessionError → Bool
  | .cache _ => false
  | _ => true

/-- The error is what a call or a field reported, and not that no library could be come by. -/
def CacheError.isReport : CacheError → Bool
  | .call _ => true
  | .unknownField _ _ => true
  | _ => false

namespace Session

/-- Makes a call that is asked for. -/
def call (s : Session σ L) : Asked (Binding L) → Ask σ L (Val L)
  | .construct target args => s.construct target args
  | .method receiver name args options => s.callMethod receiver name args options
  | .function name args options => s.callFunction name args options
  | .operator receiver op args => s.applyOperator receiver op args

theorem call_eq (s : Session σ L) (a : Asked (Binding L)) :
    s.call a = s.request (a.request s.catalog) := by
  cases a <;> rfl

/-- The answer to a demand, if it has one. -/
def answer (s : Session σ L) : Demand (Binding L) → Ask σ L (Option (Val L))
  | .call a => do return some (← s.call a)
  | .getField receiver field => do return some (← s.getField receiver field)
  | .setField receiver field arg => do
    s.setField receiver field arg
    return none
  | .classType name args => do return some (← s.classType name args)
  | .viewType spec => do return some (← Action.ofExcept id (viewType spec))
  | .enumValue typeName enumerator => do
    return some (← Action.ofExcept id (s.enumValue typeName enumerator))
  | .aliasType className name => do return some (← Action.ofExcept id (s.aliasType className name))

/-! ### Carrying out -/

/-- Reads a field that an object has. -/
def readField (s : Session σ L) (o : Object (Binding L)) (field : String) :
    Action σ L CacheError (Val L) := do
  let binding ← Cache.ensureClass s.platform o.cppType
  let result ← binding.getField s.platform o.handle.ptr field
  let value ← s.cast result false
  return value.inside o.handle

/-- Writes a field that an object has. -/
def writeField (s : Session σ L) (o : Object (Binding L)) (field : String) (raw : Raw) :
    Action σ L CacheError Unit := do
  let binding ← Cache.ensureClass s.platform o.cppType
  binding.setField s.platform o.handle.ptr field raw

/-- Registers a class whose type object is asked for, unless template arguments are missing. -/
def registerNamed (s : Session σ L) (name : String) (args : Option (List TemplateArg)) :
    Action σ L CacheError TypeObject := do
  let entry := s.catalog.class? name
  let qualified := templatedName name (entry.bind (·.space)) args
  if !entry.any (·.isTemplate) || args.isSome then
    discard (Cache.ensureClass s.platform qualified)
  return ⟨qualified, Spelling.bare name⟩

/-- How a demand is carried out, unless it is refused. -/
def plan (s : Session σ L) : Demand (Binding L) →
    Except SessionError (Action σ L CacheError (Option (Val L)))
  | .call a => (a.request s.catalog).map fun r => do return some (← s.perform r)
  | .getField receiver field => (fieldOwner s.catalog receiver field).map fun owner => do
    return some (← s.readField owner.1 field)
  | .setField receiver field arg => (fieldValue s.catalog receiver field arg).map fun value => do
    s.writeField value.1 field value.2
    return none
  | .classType name args => .ok do return some (.type (← s.registerNamed name args))
  | .viewType spec => (viewType spec).map fun v => return some v
  | .enumValue typeName enumerator => (s.enumValue typeName enumerator).map fun v => return some v
  | .aliasType className name => (s.aliasType className name).map fun v => return some v

/-- What is made of a result that there is does not matter to how an action fails. -/
theorem exec_wrapError_bind {ε ε' α β : Type} (wrap : ε → ε') (f : Action σ L ε α) (g : α → β)
    (b : Bench σ L) : exec (do return g (← Action.wrapError wrap f)) b =
      exec (Action.wrapError wrap do return g (← f)) b := by
  rw [Action.wrapError_bind]
  rfl

/-- **A demand is refused at once or carried out,** and then it can only fail in the cache. -/
theorem exec_answer (s : Session σ L) (d : Demand (Binding L)) (b : Bench σ L) :
    exec (s.answer d) b = match s.plan d with
      | .error e => (.error e, b)
      | .ok work => exec (Action.wrapError .cache work) b := by
  cases d with
  | call a =>
    rw [answer, call_eq, request, plan]
    cases a.request s.catalog with
    | error e => rfl
    | ok r => exact exec_wrapError_bind SessionError.cache (s.perform r) some b
  | getField receiver field =>
    rw [answer, getField, plan]
    cases fieldOwner s.catalog receiver field with
    | error e => rfl
    | ok owner => exact exec_wrapError_bind SessionError.cache (s.readField owner.1 field) some b
  | setField receiver field arg =>
    rw [answer, setField, plan]
    cases fieldValue s.catalog receiver field arg with
    | error e => rfl
    | ok value =>
      exact exec_wrapError_bind SessionError.cache (s.writeField value.1 field value.2)
        (fun _ => none) b
  | classType name args =>
    rw [answer, classType, plan]
    simp only [registerNamed]
    split
    · simp only [exec_bind, Action.exec_wrapError, exec_discard]
      rcases exec (Cache.ensureClass s.platform _) b with ⟨_ | c, b'⟩ <;> rfl
    · rfl
  | viewType spec =>
    rw [answer, plan]
    cases viewType spec <;> rfl
  | enumValue typeName enumerator =>
    rw [answer, plan]
    cases s.enumValue typeName enumerator <;> rfl
  | aliasType className name =>
    rw [answer, plan]
    cases s.aliasType className name <;> rfl

end Session

/-! ### The check -/

/-- If there is an error, it is a refusal. -/
def Refuses {α : Type} (x : Except SessionError α) : Prop :=
  ∀ e, x = .error e → e.isRefusal = true

namespace Refuses

variable {α β ε : Type}

theorem ok (a : α) : Refuses (.ok a) := nofun

theorem error {e : SessionError} (h : e.isRefusal = true) :
    Refuses (.error e : Except _ α) := by
  rintro e' he
  obtain rfl := Except.error.inj he
  exact h

theorem bind {x : Except SessionError α} {f : α → Except SessionError β} (hx : Refuses x)
    (hf : ∀ a, Refuses (f a)) : Refuses (x >>= f) := by
  intro e h
  rcases error_of_bind_eq_error h with h | ⟨a, -, h⟩
  · exact hx e h
  · exact hf a e h

theorem map {x : Except SessionError α} (hx : Refuses x) (f : α → β) : Refuses (x.map f) :=
  fun e h => hx e (map_eq_error_iff.1 h)

theorem mapError {x : Except ε α} {wrap : ε → SessionError} (h : ∀ e, (wrap e).isRefusal = true) :
    Refuses (x.mapError wrap) := by
  intro e he
  obtain ⟨e', -, rfl⟩ := exists_of_mapError_eq_error he
  exact h e'

end Refuses

namespace Request

variable {ω : Type}

theorem refuses_marshalWith (receiver : Value ω) (args : List (Arg ω)) :
    Refuses (marshalWith receiver args) := .mapError fun _ => rfl

theorem refuses_receiverType (receiver : Value ω) : Refuses (receiverType receiver) := by
  cases receiver with
  | object | view => exact .ok _
  | primitive | type => exact .error rfl

theorem refuses_checkArity (op : Operator) (given : Nat) : Refuses (checkArity op given) := by
  unfold checkArity
  split
  · split
    · exact .ok _
    · exact .error rfl
  · exact .ok _

theorem refuses_operator (m : Catalog) (receiver : Value ω) (op : Operator)
    (args : List (Arg ω)) : Refuses (operator m receiver op args) := by
  refine .bind (refuses_receiverType receiver) fun type => ?_
  split
  · exact .error rfl
  · exact .bind (refuses_checkArity op _) fun _ => .bind (refuses_marshalWith receiver args)
      fun _ => .ok _

theorem refuses_construct (m : Catalog) (target : Value ω) (args : List (Arg ω)) :
    Refuses (construct m target args) := by
  cases target with
  | type t =>
    have hmarshal : Refuses (marshal args) := .mapError fun _ => rfl
    exact .bind hmarshal fun _ => .ok _
  | object o =>
    show Refuses (if m.hasOperator o.className .call then _ else _)
    split
    · exact refuses_operator m (.object o) .call args
    · exact .error rfl
  | view | primitive => exact .error rfl

theorem refuses_method (m : Catalog) (receiver : Value ω) (name : String) (args : List (Arg ω))
    (options : CallOptions) : Refuses (method m receiver name args options) := by
  cases receiver with
  | object o =>
    show Refuses (if m.lacksMethod o.className name then _ else _)
    split
    · exact .error rfl
    · exact .bind (refuses_receiverType _) fun _ => .bind (refuses_marshalWith _ args)
        fun _ => .ok _
  | primitive | view | type =>
    exact .bind (refuses_receiverType _) fun _ => .bind (refuses_marshalWith _ args) fun _ => .ok _

theorem refuses_function (m : Catalog) (name : String) (args : List (Arg ω))
    (options : CallOptions) : Refuses (function m name args options) := by
  have hmarshal : Refuses (marshal args) := .mapError fun _ => rfl
  exact .bind hmarshal fun _ => .ok _

end Request

theorem Asked.refuses_request {ω : Type} (m : Catalog) (a : Asked ω) : Refuses (a.request m) := by
  cases a with
  | construct target args => exact Request.refuses_construct m target args
  | method receiver name args options => exact Request.refuses_method m receiver name args options
  | function name args options => exact Request.refuses_function m name args options
  | operator receiver op args => exact Request.refuses_operator m receiver op args

namespace Session

theorem refuses_fieldOwner (m : Catalog) (receiver : Val L) (field : String) :
    Refuses (fieldOwner m receiver field) := by
  cases receiver with
  | object o =>
    unfold fieldOwner
    dsimp only
    split
    · exact .ok _
    · exact .error rfl
  | primitive | view | type => exact .error rfl

theorem refuses_fieldValue (m : Catalog) (receiver : Val L) (field : String)
    (arg : Arg (Binding L)) : Refuses (fieldValue m receiver field arg) := by
  refine .bind (refuses_fieldOwner m receiver field) fun (o, readOnly) => ?_
  show Refuses (if readOnly then _ else _)
  split
  · exact .error rfl
  · exact .bind (.mapError fun _ => rfl) fun _ => .ok _

/-- **The check can only refuse.** -/
theorem refuses_plan (s : Session σ L) (d : Demand (Binding L)) : Refuses (s.plan d) := by
  cases d with
  | call a => exact (a.refuses_request s.catalog).map _
  | getField receiver field => exact (refuses_fieldOwner s.catalog receiver field).map _
  | setField receiver field arg => exact (refuses_fieldValue s.catalog receiver field arg).map _
  | classType => exact .ok _
  | viewType spec =>
    have hspelling : Refuses (spec.spelling.mapError SessionError.type) := .mapError fun _ => rfl
    exact (hspelling.map _).map _
  | enumValue typeName enumerator =>
    refine Refuses.map ?_ _
    unfold enumValue
    split
    · exact .ok _
    · exact .error rfl
  | aliasType className name =>
    refine Refuses.map ?_ _
    unfold aliasType
    split
    · exact .ok _
    · exact .error rfl

/-! ### What is done at the bench -/

/-- Comes by the library of a request, and counts the call. -/
def supply (s : Session σ L) (r : Request) : Action σ L CacheError (Artifact L) := do
  let artifact ← Cache.lookup s.platform r.key r.source
  Action.count (·.call r.kind r.key.signature)
  return artifact

/-- A call that is carried out is come by, run, and its result cast. -/
theorem perform_eq (s : Session σ L) (r : Request) :
    s.perform r = (do
      let artifact ← s.supply r
      let result ← artifact.invoke s.platform r.args.raw
      s.cast result r.own) := by
  simp only [perform, supply, bind_assoc, pure_bind]

/-- What a session does at its bench beside looking up calls. -/
inductive Does (s : Session σ L) : {α : Type} → Action σ L CacheError α → Prop
  | pure {α : Type} (a : α) : Does s (Pure.pure a : Action σ L CacheError α)
  | throw {α : Type} {e : CacheError} (h : e.isReport = true) :
    Does s (throw e : Action σ L CacheError α)
  | inWorld {α : Type} (f : StateM (World σ L) α) : Does s (Action.inWorld f)
  | ensureClass (name : String) : Does s (Cache.ensureClass s.platform name)
  | bind {α β : Type} {f : Action σ L CacheError α} {g : α → Action σ L CacheError β}
    (hf : Does s f) (hg : ∀ a, Does s (g a)) : Does s (f >>= g)

variable (s : Session σ L)

theorem does_ofExcept {ε α : Type} {wrap : ε → CacheError} (h : ∀ e, (wrap e).isReport = true)
    (x : Except ε α) : s.Does (Action.ofExcept wrap x) := by
  cases x with
  | ok a => exact .pure a
  | error e => exact .throw (h e)

theorem does_invoke (a : Artifact L) (args : List Raw) : s.Does (a.invoke s.platform args) :=
  .bind (.inWorld _) fun _ => s.does_ofExcept (fun _ => rfl) _

theorem does_checkName (c : Binding L) (field : String) : s.Does (c.checkName field) := by
  unfold Binding.checkName
  split
  · exact .throw rfl
  · exact .pure _

theorem does_getField (c : Binding L) (ptr : Address) (field : String) :
    s.Does (c.getField s.platform ptr field) := by
  refine .bind (s.does_checkName c field) fun _ => .bind (.inWorld _) fun reply => ?_
  repeat' split
  · exact .throw rfl
  · exact .throw rfl
  · exact s.does_ofExcept (fun _ => rfl) _

theorem does_setField (c : Binding L) (ptr : Address) (field : String) (value : Raw) :
    s.Does (c.setField s.platform ptr field value) := by
  refine .bind (s.does_checkName c field) fun _ => .bind (.inWorld _) fun status => ?_
  repeat' split
  · exact .pure _
  all_goals exact .throw rfl

theorem does_cast (result : Result) (own : Bool) : s.Does (s.cast result own) := by
  cases result with
  | void | int | real | bool | text | enumerator => exact .pure _
  | handle r =>
    show s.Does (s.castHandle r own)
    unfold castHandle
    split
    · exact .pure _
    · refine .bind (.ensureClass _) fun _ => ?_
      split
      · exact .bind (.inWorld _) fun _ => .pure _
      · exact .pure _

theorem does_readField (o : Object (Binding L)) (field : String) :
    s.Does (s.readField o field) :=
  .bind (.ensureClass _) fun c => .bind (s.does_getField c _ _) fun _ =>
    .bind (s.does_cast _ _) fun _ => .pure _

theorem does_writeField (o : Object (Binding L)) (field : String) (raw : Raw) :
    s.Does (s.writeField o field raw) :=
  .bind (.ensureClass _) fun c => s.does_setField c _ _ _

theorem does_registerNamed (name : String) (args : Option (List TemplateArg)) :
    s.Does (s.registerNamed name args) := by
  unfold registerNamed
  dsimp only
  split
  · exact .bind (.bind (.ensureClass _) fun _ => .pure _) fun _ => .pure _
  · exact .pure _

variable {s}

/-- A call is looked up, and the rest is done behind that. -/
theorem exists_perform_of_plan {a : Asked (Binding L)}
    {work : Action σ L CacheError (Option (Val L))} (h : s.plan (.call a) = .ok work) :
    ∃ r, a.request s.catalog = .ok r ∧ work = (do return some (← s.perform r)) := by
  obtain ⟨r, hrequest, rfl⟩ := exists_of_map_eq_ok h
  exact ⟨r, hrequest, rfl⟩

/-- **What is done for a demand other than a call.** -/
theorem does_plan {d : Demand (Binding L)} {work : Action σ L CacheError (Option (Val L))}
    (hcall : ∀ a, d ≠ .call a) (h : s.plan d = .ok work) : s.Does work := by
  cases d with
  | call a => exact absurd rfl (hcall a)
  | getField receiver field =>
    obtain ⟨owner, -, rfl⟩ := exists_of_map_eq_ok h
    exact .bind (s.does_readField _ _) fun _ => .pure _
  | setField receiver field arg =>
    obtain ⟨value, -, rfl⟩ := exists_of_map_eq_ok h
    exact .bind (s.does_writeField _ _ _) fun _ => .pure _
  | classType name args =>
    obtain rfl := Except.ok.inj h
    exact .bind (s.does_registerNamed _ _) fun _ => .pure _
  | viewType | enumValue | aliasType =>
    obtain ⟨v, -, rfl⟩ := exists_of_map_eq_ok h
    exact .pure _

end Session
end Bindery
