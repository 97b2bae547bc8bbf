/-
# Requests

How calls are checked and turned into requests.

| call | on | refused if |
| --- | --- | --- |
| construct | a class | |
| | an object | its class declares no call operator |
| method | an object | its class is known and has no such method |
| | a view | |
| operator | an object | its class does not declare the operator |
| | a view | it is not the call operator |

All but constructors take the receiver as their first argument; the key of the call spells the
type of the receiver in the name of the call. The arguments are marshalled last.
-/

import Bindery.Session.Basic

namespace Bindery

/-- What a value is, as told to a caller who needs an object. -/
def Value.description {ω : Type} : Value ω → String
  | .primitive _ => "a primitive"
  | .view _ => "an array view"
  | .object _ => "an instance"
  | .type _ => "a type object"

namespace Catalog

/-- Whether a class has a method. -/
def hasMethod (m : Catalog) (className name : String) : Bool :=
  match m.member? className name with
  | some (.method _ _) => true
  | _ => false

/-- Whether a class is known, and known to have no such method. -/
def lacksMethod (m : Catalog) (className name : String) : Bool :=
  (m.class? className).isSome && !m.hasMethod className name

end Catalog

namespace Request

variable {ω : Type}

/-- The type of a receiver, which has to be an object or a view. -/
def receiverType : Value ω → Except SessionError String
  | .object o => .ok o.cppType
  | .view v => .ok v.cppType
  | other => .error (.notObject other.description)

/-- Marshals the arguments of a call. -/
def marshal (args : List (Arg ω)) : Except SessionError Marshalled :=
  (Marshalled.ofArgs args).mapError .type

/-- Marshals the arguments of a call behind its receiver. -/
def marshalWith (receiver : Value ω) (args : List (Arg ω)) : Except SessionError Marshalled :=
  (Marshalled.withReceiver receiver args).mapError .type

/-- The types that go into the key of a call with a receiver. -/
def argumentTypes (args : Marshalled) : List String := args.types.tail

/-- A construction of a type. -/
def constructType (t : TypeObject) (args : List (Arg ω)) : Except SessionError Request := do
  let args ← marshal args
  return {
    key := (Signature.constructor t.cppType args.types).key
    kind := .constructor
    target := .constructor t.cppType
    args
    own := true }

/-- Whether a receiver has an operator. -/
def declares (m : Catalog) (op : Operator) : Value ω → Bool
  | .object o => m.hasOperator o.className op
  | .view _ => op == .call
  | _ => false

/-- The name under which a receiver is refused an operator. -/
def refusedName (type : String) : Value ω → String
  | .object o => o.className
  | _ => type

/-- Refuses an operator with the wrong number of arguments. -/
def checkArity (op : Operator) (given : Nat) : Except SessionError Unit :=
  match op.arity with
  | some expected => if expected = given then .ok () else .error (.arity op expected given)
  | none => .ok ()

/-- An application of an operator. -/
def operator (m : Catalog) (receiver : Value ω) (op : Operator) (args : List (Arg ω)) :
    Except SessionError Request := do
  let type ← receiverType receiver
  if !declares m op receiver then throw (.operator (refusedName type receiver) op)
  checkArity op args.length
  let args ← marshalWith receiver args
  return {
    key := (Signature.operator type op (argumentTypes args)).key
    kind := .kernel
    target := .operator op
    args
    own := false }

/-- A construction; on an object with a call operator it applies that. -/
def construct (m : Catalog) (target : Value ω) (args : List (Arg ω)) :
    Except SessionError Request :=
  match target with
  | .type t => constructType t args
  | .object o =>
    if m.hasOperator o.className .call then operator m target .call args
    else .error (.reconstruction o.className)
  | .view v => .error (.reconstruction v.cppType)
  | .primitive _ => .error (.notObject target.description)

/-- The spelling of a method behind its receiver. -/
def methodSpelling (name : String) : Option (List TemplateArg) → String
  | none => name
  | some args => "template " ++ templatedName name none (some args)

/-- A call of a method. -/
def method (m : Catalog) (receiver : Value ω) (name : String) (args : List (Arg ω))
    (options : CallOptions) : Except SessionError Request := do
  if let .object o := receiver then
    if m.lacksMethod o.className name then throw (.unknownMember o.className name)
  let type ← receiverType receiver
  let args ← marshalWith receiver args
  let signature := Signature.method type name (argumentTypes args)
  return {
    key := { signature with templateArgs := options.templateArgs : Signature }.key
    kind := .kernel
    target := .method (methodSpelling name options.templateArgs)
    args
    own := options.own }

/-- The namespace of a function: the caller's, or that in the catalog. -/
def functionSpace (m : Catalog) (name : String) (options : CallOptions) : Option String :=
  options.space.or ((m.function? name).bind (·.space))

/-- A call of a free function. -/
def function (m : Catalog) (name : String) (args : List (Arg ω)) (options : CallOptions) :
    Except SessionError Request := do
  let space := functionSpace m name options
  let args ← marshal args
  return {
    key := (Signature.function name space args.types options.templateArgs).key
    kind := .kernel
    target := .function (templatedName name space options.templateArgs)
    args
    own := options.own }

end Request
end Bindery
