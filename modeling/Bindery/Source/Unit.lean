/-
# Units of source text

Statements, functions, structures and tables, and the lines of text they are written in. A block
is indented by four spaces. A blank line stands before every item and between the functions of a
structure.
-/

import Bindery.Source.Expr

namespace Bindery
namespace Source

/-- A header that a unit includes. -/
inductive Header where
  | system (name : String)
  | own (name : String)
  deriving DecidableEq

/-- The line that includes a header. -/
def Header.line : Header → String
  | system name => "#include <" ++ name ++ ">"
  | own name => "#include \"" ++ name ++ "\""

/-- How a local name is bound to its initial value. -/
inductive Binding where
  | value | reference | pointer
  deriving DecidableEq

/-- What stands between the type and the name. -/
def Binding.sigil : Binding → String
  | value => " "
  | reference => " &"
  | pointer => " *"

/-- A statement. -/
inductive Stmt where
  | declare (type : String) (binding : Binding) (name : String) (init : Expr)
  | expr (e : Expr)
  | assign (target value : Expr)
  | ret (e : Option Expr)
  | cond (test : Expr) (body : List Stmt)
  deriving Inhabited

/-- Four spaces for each level. -/
def indent (depth : Nat) : String := String.ofList (List.replicate (4 * depth) ' ')

namespace Stmt

/-- The text of a statement that takes one line. -/
def plain : Stmt → String
  | declare type binding name init => type ++ binding.sigil ++ name ++ " = " ++ init.text ++ ";"
  | expr e => e.text ++ ";"
  | assign target value => target.text ++ " = " ++ value.text ++ ";"
  | ret none => "return;"
  | ret (some e) => "return " ++ e.text ++ ";"
  | cond test _ => "if (" ++ test.text ++ ") \x7b"

mutual

/-- The lines of a statement. -/
def lines (depth : Nat) : Stmt → List String
  | cond test body =>
    (indent depth ++ (cond test []).plain) :: (linesOf (depth + 1) body ++ [indent depth ++ "\x7d"])
  | s => [indent depth ++ s.plain]

/-- The lines of statements. -/
def linesOf (depth : Nat) : List Stmt → List String
  | [] => []
  | s :: r => lines depth s ++ linesOf depth r

end

end Stmt

/-- A parameter of a function. -/
structure Param where
  type : String
  name : String
  deriving DecidableEq

/-- Whether a text ends with a character. -/
def endsWith (s : String) (c : Char) : Bool := s.toList.getLast? == some c

/-- A parameter with its type; a name follows `*` and `&` directly. -/
def Param.text (p : Param) : String :=
  if endsWith p.type '*' || endsWith p.type '&' then p.type ++ p.name else p.type ++ " " ++ p.name

/-- A function. -/
structure Function where
  ret : String
  name : String
  params : List Param := []
  body : List Stmt := []
  /-- The parameters of a template. -/
  template : Option (List String) := none
  /-- Visible outside the library under its plain name. -/
  exported : Bool := false
  isStatic : Bool := false

/-- The line that starts a template. -/
def templateLine (params : List String) : String := "template <" ++ ", ".intercalate params ++ ">"

namespace Function

/-- The line that opens a function. -/
def head (f : Function) : String :=
  (if f.exported then "extern \"C\" BIND_EXPORT " else "") ++ (if f.isStatic then "static " else "") ++
    f.ret ++ (if endsWith f.ret '*' then "" else " ") ++ f.name ++ "(" ++
    ", ".intercalate (f.params.map Param.text) ++ ") \x7b"

/-- The lines of a function. -/
def lines (depth : Nat) (f : Function) : List String :=
  f.template.toList.map (fun ps => indent depth ++ templateLine ps) ++
    [indent depth ++ f.head] ++ Stmt.linesOf (depth + 1) f.body ++ [indent depth ++ "\x7d"]

end Function

/-- A structure that groups functions. -/
structure Struct where
  name : String
  functions : List Function
  template : Option (List String) := none

/-- The lines of functions with blank lines between them. -/
def functionLines : List Function → List String
  | [] => []
  | [f] => f.lines 1
  | f :: r => f.lines 1 ++ "" :: functionLines r

/-- The lines of a structure. -/
def Struct.lines (s : Struct) : List String :=
  s.template.toList.map templateLine ++ ["struct " ++ s.name ++ " \x7b"] ++
    functionLines s.functions ++ ["\x7d;"]

/-- A table of constants. -/
structure Table where
  type : String
  name : String
  rows : List Expr

/-- The lines of a table. -/
def Table.lines (t : Table) : List String :=
  ["static const " ++ t.type ++ " " ++ t.name ++ "[] = \x7b"] ++
    t.rows.map (fun e => indent 1 ++ e.text ++ ",") ++ ["\x7d;"]

/-- A top-level item. -/
inductive Item where
  | function (f : Function)
  | struct (s : Struct)
  | table (t : Table)

/-- The lines of an item. -/
def Item.lines : Item → List String
  | function f => f.lines 0
  | struct s => s.lines
  | table t => t.lines

/-- A unit of source text: headers, then items. -/
structure Unit where
  headers : List Header := []
  items : List Item := []
  pragmaOnce : Bool := false

namespace Unit

/-- The lines of a unit. -/
def lines (u : Unit) : List String :=
  ["// Generated binding source. Do not edit."] ++ (if u.pragmaOnce then ["#pragma once"] else []) ++
    [""] ++ u.headers.map Header.line ++ u.items.flatMap fun i => "" :: i.lines

/-- The text of a unit. -/
def text (u : Unit) : String := String.join (u.lines.map (· ++ "\n"))

end Unit
end Source
end Bindery
