/-
# Wrappers of calls

The unit for one call signature has three functions:

| function | does |
| --- | --- |
| `bind_target` | reads the arguments and makes the call |
| the entry point | runs `bind_target` behind a check of the number of arguments |
| the probe | describes the type that `bind_target` returns |

Argument `i` becomes a local `a_i`, read in the way of its passing; a pointer to a primitive has
its value in a local `s_i`.
-/

import Bindery.Call.Marshalled
import Bindery.Cpp.Operator
import Bindery.Source.Symbols
import Bindery.Source.Unit

namespace Bindery
namespace Source

/-- What a wrapper calls. -/
inductive Target where
  /-- A free function, by its qualified name with template arguments. -/
  | function (qualified : String)
  | constructor (cppType : String)
  /-- A method of the first argument. -/
  | method (name : String)
  /-- An operator whose left operand is the first argument. -/
  | operator (op : Operator)
  deriving DecidableEq

/-- A call to be wrapped. -/
structure Call where
  hash : String
  target : Target
  args : List ArgSpec
  includes : List String
  deriving DecidableEq

/-- Why a call cannot be wrapped. -/
inductive EmitError where
  | missingReceiver
  | operandCount (op : Operator) (expected given : Nat)
  deriving DecidableEq

/-- The wording of an emit error. -/
def EmitError.message : EmitError → String
  | missingReceiver => "member call without a receiver"
  | operandCount op expected given =>
    "`" ++ op.cppName ++ "` takes " ++ Text.natText expected ++
      " operand(s) including the receiver, got " ++ Text.natText given

/-- The headers that a generated source includes. -/
def headersOf (includes : List String) : List Header :=
  .own preludeFile :: includes.map .own

/-- A name with a number. -/
def numbered (letter : String) (i : Nat) : String := letter ++ Text.natText i

/-- `bind::name<type>(args[i])` -/
def readSlot (name type : String) (i : Nat) : Expr :=
  .call (.template (.ident ("bind::" ++ name)) [type]) [.index (.ident "args") (.int i)]

/-- The statements that read argument `i`. -/
def readArg (i : Nat) (a : ArgSpec) : List Stmt :=
  let local_ := numbered "a" i
  match a.passing with
  | .value => [.declare a.cppType .value local_ (readSlot "read" a.cppType i)]
  | .reference => [.declare a.cppType .reference local_ (readSlot "deref" a.cppType i)]
  | .pointer => [.declare a.cppType .pointer local_ (readSlot "pointer" a.cppType i)]
  | .pointerToValue =>
    let storage := numbered "s" i
    [.declare a.cppType .value storage (readSlot "read" a.cppType i),
      .declare a.cppType .pointer local_ (.addressOf (.ident storage))]
  | .text => [.declare "std::string" .value local_ (readSlot "read" "std::string" i)]

/-- Argument `i` as an operand. -/
def operand (i : Nat) (a : ArgSpec) : Expr :=
  let local_ := Expr.ident (numbered "a" i)
  match a.passing with
  | .text => .call (.member local_ "data") []
  | _ => local_

/-- Applies `f` to every element and its position, counted from `i`. -/
def indexed {α β : Type} (f : Nat → α → β) (i : Nat) : List α → List β
  | [] => []
  | a :: r => f i a :: indexed f (i + 1) r

/-- The statement that applies an operator. -/
def operatorStmt (op : Operator) (operands : List Expr) : Except EmitError Stmt :=
  match op, operands with
  | .add, [a, b] => .ok (.ret (some (.binary .add a b)))
  | .sub, [a, b] => .ok (.ret (some (.binary .sub a b)))
  | .getItem, [a, i] => .ok (.ret (some (.index a i)))
  | .setItem, [a, i, v] => .ok (.assign (.index a i) v)
  | .call, a :: args => .ok (.ret (some (.call a args)))
  | .deref, [a] => .ok (.ret (some (.deref a)))
  | op, given =>
    .error (.operandCount op (match op.arity with | some n => n + 1 | none => 1) given.length)

/-- The statement that makes a call. -/
def callStmt (target : Target) (operands : List Expr) : Except EmitError Stmt :=
  match target, operands with
  | .function qualified, args => .ok (.ret (some (.call (.ident qualified) args)))
  | .constructor cppType, args => .ok (.ret (some (.new cppType args)))
  | .method name, receiver :: args => .ok (.ret (some (.call (.member receiver name) args)))
  | .method _, [] => .error .missingReceiver
  | .operator op, operands => operatorStmt op operands

/-- The function that makes the call. -/
def targetName : String := "bind_target"

/-- The unit of a call whose last statement is `stmt`. -/
def wrapperUnit (c : Call) (stmt : Stmt) : Unit where
  headers := headersOf c.includes
  items := [
    .function {
      ret := "auto"
      name := targetName
      params := [⟨"const bind_value *", "args"⟩]
      body := (indexed readArg 0 c.args).flatten ++ [stmt]
      isStatic := true },
    .function {
      ret := "int"
      name := c.hash
      params := [⟨"const bind_value *", "args"⟩, ⟨"size_t", "nargs"⟩, ⟨"bind_value *", "out"⟩]
      body := [.ret (some (.call (.ident "bind::invoke")
        [.int c.args.length, .ident "nargs", .ident "out",
          .lambda (.call (.ident targetName) [.ident "args"])]))]
      exported := true },
    .function {
      ret := "bind_probe"
      name := probeSymbol c.hash
      body := [.ret (some (.call
        (.template (.ident "bind::probe") ["decltype(" ++ targetName ++ "(nullptr))"]) []))]
      exported := true }]

/-- The unit of a call. -/
def wrapper (c : Call) : Except EmitError Unit :=
  (callStmt c.target (indexed operand 0 c.args)).map (wrapperUnit c)

end Source
end Bindery
