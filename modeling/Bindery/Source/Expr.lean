/-
# Expressions

The C++ expressions that generated sources are made of, and their text. An operand that is itself
a binary operation, a prefix operation, `new` or `delete` stands in parentheses; so do no others.

| operation | text |
| --- | --- |
| call, index, member, template | `f(a, b)`, `a[i]`, `a.m`, `t<A, B>` |
| binary | `a + b`, `a - b`, `a / b`, `a == b` |
| prefix | `*a`, `&a`, `new T(a, b)`, `delete a` |
| cast, lambda, aggregate | `static_cast<T>(a)`, a `[&]` lambda that returns, a list in braces |

In a string literal the quote, the backslash, the line feed and the tab are escaped.
-/

import Bindery.Text.Digits

namespace Bindery
namespace Source

/-- A binary operator. -/
inductive BinaryOp where
  | add | sub | div | eq
  deriving DecidableEq

/-- The symbol of an operator. -/
def BinaryOp.symbol : BinaryOp → List Char
  | add => ['+']
  | sub => ['-']
  | div => ['/']
  | eq => ['=', '=']

/-- An expression. -/
inductive Expr where
  | ident (name : String)
  | string (s : String)
  | int (n : Int)
  | call (callee : Expr) (args : List Expr)
  | member (receiver : Expr) (name : String)
  | template (base : Expr) (args : List String)
  | binary (op : BinaryOp) (left right : Expr)
  | index (target position : Expr)
  | deref (e : Expr)
  | addressOf (e : Expr)
  | new (type : String) (args : List Expr)
  | delete (e : Expr)
  | cast (type : String) (e : Expr)
  | lambda (body : Expr)
  | brace (items : List Expr)
  deriving Inhabited

namespace Expr

/-- Whether an expression needs parentheses as an operand. -/
def isCompound : Expr → Bool
  | binary .. | deref _ | addressOf _ | new .. | delete _ => true
  | _ => false

/-- How a character is written in a string literal. -/
def escapeChar (c : Char) : List Char :=
  match c with
  | '"' => ['\\', '"']
  | '\\' => ['\\', '\\']
  | '\n' => ['\\', 'n']
  | '\t' => ['\\', 't']
  | _ => [c]

/-- Text in parentheses if `compound`. -/
def parenthesize (compound : Bool) (cs : List Char) : List Char :=
  if compound then '(' :: (cs ++ [')']) else cs

mutual

/-- The text of an expression. -/
def chars : Expr → List Char
  | ident name => name.toList
  | string s => '"' :: (s.toList.flatMap escapeChar ++ ['"'])
  | int n => (Text.intText n).toList
  | call callee args =>
    parenthesize callee.isCompound callee.chars ++ '(' :: (charsList args ++ [')'])
  | member receiver name =>
    parenthesize receiver.isCompound receiver.chars ++ '.' :: name.toList
  | template base args =>
    parenthesize base.isCompound base.chars ++ '<' :: ((", ".intercalate args).toList ++ ['>'])
  | binary op left right =>
    parenthesize left.isCompound left.chars ++ ' ' :: (op.symbol ++ ' ' ::
      parenthesize right.isCompound right.chars)
  | index target position =>
    parenthesize target.isCompound target.chars ++ '[' :: (position.chars ++ [']'])
  | deref e => '*' :: parenthesize e.isCompound e.chars
  | addressOf e => '&' :: parenthesize e.isCompound e.chars
  | new type args => "new ".toList ++ type.toList ++ '(' :: (charsList args ++ [')'])
  | delete e => "delete ".toList ++ parenthesize e.isCompound e.chars
  | cast type e => "static_cast<".toList ++ type.toList ++ ">(".toList ++ e.chars ++ [')']
  | lambda body => "[&] \x7b return ".toList ++ body.chars ++ "; \x7d".toList
  | brace items => '{' :: (charsList items ++ ['}'])

/-- The texts of expressions, with a comma and a space between them. -/
def charsList : List Expr → List Char
  | [] => []
  | [e] => e.chars
  | e :: r => e.chars ++ ',' :: ' ' :: charsList r

end

/-- The text of an expression. -/
def text (e : Expr) : String := String.ofList e.chars

end Expr
end Source
end Bindery
