/-
# Operators

Six operators of a class can be called from outside. Each has a tag that goes into call
signatures and a name under which a class declares it:

| operator | tag | declared as | operands besides the receiver |
| --- | --- | --- | --- |
| `add` | `ADD_` | `operator+` | 1 |
| `sub` | `SUB_` | `operator-` | 1 |
| `getItem` | `GET_ITEM_` | `operator[]` | 1 |
| `setItem` | `SET_ITEM_` | `operator[]` | 2 |
| `call` | `CALL_` | `operator()` | any number |
| `deref` | `DEREF_` | `operator*` | 0 |
-/

import Bindery.Text.Blank

namespace Bindery

/-- The operators of a class that can be called. -/
inductive Operator where
  | add | sub | getItem | setItem | call | deref
  deriving DecidableEq

namespace Operator

/-- All operators, in the order in which they are listed. -/
def all : List Operator := [add, sub, getItem, setItem, call, deref]

/-- The tag of an operator in a call signature. -/
def tag : Operator → String
  | add => "ADD_"
  | sub => "SUB_"
  | getItem => "GET_ITEM_"
  | setItem => "SET_ITEM_"
  | call => "CALL_"
  | deref => "DEREF_"

/-- The name under which a class declares an operator. -/
def cppName : Operator → String
  | add => "operator+"
  | sub => "operator-"
  | getItem => "operator[]"
  | setItem => "operator[]"
  | call => "operator()"
  | deref => "operator*"

/-- The name of an operator in stored modules. -/
def key : Operator → String
  | add => "add"
  | sub => "sub"
  | getItem => "get_item"
  | setItem => "set_item"
  | call => "call"
  | deref => "deref"

/-- The operator stored under a name. -/
def ofKey? (name : String) : Option Operator := all.find? (·.key == name)

/-- The number of operands besides the receiver; the call operator takes any number. -/
def arity : Operator → Option Nat
  | add => some 1
  | sub => some 1
  | getItem => some 1
  | setItem => some 2
  | call => none
  | deref => some 0

/-- The operators that a member declares, by its name and its number of parameters. Indexing
serves for reading and for writing; unary minus and binary `*` are not offered. -/
def ofMember (name : String) (parameters : Nat) : List Operator :=
  let compact := String.ofList (name.toList.filter (!Text.isBlank ·))
  if compact = "operator+" ∧ parameters = 1 then [add]
  else if compact = "operator-" ∧ parameters = 1 then [sub]
  else if compact = "operator[]" then [getItem, setItem]
  else if compact = "operator()" then [call]
  else if compact = "operator*" ∧ parameters = 0 then [deref]
  else []

end Operator
end Bindery
