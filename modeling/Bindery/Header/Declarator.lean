/-
# Names, types and declarators

A declaration lists specifiers, one type and declarators. A declarator wraps the declared name in
pointers, references and parameter lists, innermost first:

| written | declarator |
| --- | --- |
| `a` | `name "a"` |
| `operator+` | `operation "operator+"` |
| `*p`, `&r` | `pointer …`, `reference …` |
| `f(int a)` | `function (name "f") ["int a"]` |
| `ns::f`, `f<int>`, `(f)`, `a[3]`, `~S` | `other`, alone or with a parameter list |

Parentheses behind a name are a parameter list when every part between commas can be read as a
parameter; otherwise they hold the arguments of an initializer. Where both readings are possible,
they are arguments if a parameter would need parentheses of its own, as in `f(T (&a)[3])`.

Lengths count trees: a length function says how many trees at the start of a list belong to what
it is named for.
-/

import Bindery.Header.Tree

namespace Bindery
namespace Header

/-- A declared name with what wraps it. -/
inductive Declarator where
  | name (s : String)
  | operation (s : String)
  | other
  | pointer (inner : Declarator)
  | reference (inner : Declarator)
  | function (of : Declarator) (params : List String)
  deriving DecidableEq

/-- The words of types that are built in by pieces, as in `unsigned long int`. -/
def pieceWords : List String :=
  ["signed", "unsigned", "long", "short", "int", "char", "float", "double", "bool", "void"]

/-- The words among them that size a type. -/
def sizeWords : List String := ["signed", "unsigned", "long", "short"]

/-- The words that name types by themselves. Behind a type they are names like any other. -/
def typeWords : List String :=
  ["int", "char", "float", "double", "bool", "void", "size_t", "ssize_t", "ptrdiff_t", "intptr_t",
    "uintptr_t", "charptr_t", "nullptr_t", "max_align_t", "int8_t", "int16_t", "int32_t", "int64_t",
    "uint8_t", "uint16_t", "uint32_t", "uint64_t", "char8_t", "char16_t", "char32_t", "char64_t"]

/-- The words that qualify a declaration. -/
def specifierWords : List String :=
  ["static", "extern", "inline", "virtual", "constexpr", "consteval", "constinit", "mutable",
    "register", "thread_local", "const", "volatile", "explicit", "restrict", "typedef",
    "__restrict", "__restrict__", "__inline", "__inline__", "__forceinline", "__thread",
    "__extension__", "_Atomic", "_Noreturn", "noreturn"]

/-- The words that take a parenthesized group of their own. -/
def groupWords : List String :=
  ["alignas", "_Alignas", "__attribute__", "__attribute", "__declspec", "explicit", "decltype",
    "noexcept", "throw", "requires", "sizeof", "alignof"]

/-- The words that start an expression. -/
def valueWords : List String :=
  ["true", "false", "nullptr", "NULL", "this", "sizeof", "alignof", "new", "delete", "not"]

/-- The words that a class definition starts with. -/
def classWords : List String := ["class", "struct", "union"]

/-- How many attributes come first. -/
def attributeLength : List Tree → Nat
  | t :: g :: r =>
    if t.isAttribute then attributeLength (g :: r) + 1
    else if t.isOneOf ["alignas", "_Alignas", "__attribute__", "__attribute", "__declspec"] &&
        g.opensWith "(" then attributeLength r + 2
    else 0
  | [t] => if t.isAttribute then 1 else 0
  | [] => 0

/-- How many specifiers and attributes come first. -/
def specifierLength : List Tree → Nat
  | t :: g :: r =>
    if t.isOneOf ["alignas", "_Alignas", "__attribute__", "__attribute", "__declspec", "explicit"] &&
        g.opensWith "(" then specifierLength r + 2
    else if t.isAttribute || t.isOneOf specifierWords then specifierLength (g :: r) + 1
    else 0
  | [t] => if t.isAttribute || t.isOneOf specifierWords then 1 else 0
  | [] => 0

/-- The length of a name with namespaces and template arguments; with `start`, a further word is
expected. -/
def nameLength (start : Bool) : List Tree → Nat
  | [] => 0
  | t :: r =>
    if start then
      if t.isMark "::" || t.isWord "template" then nameLength true r + 1
      else if t.isKind .word then nameLength false r + 1
      else 0
    else if t.opensWith "<" then nameLength false r + 1
    else if t.isMark "::" then nameLength true r + 1
    else 0

/-- What a class or enumeration starts with, behind its key words. -/
structure TypeHead where
  name : List Tree
  bases : List Tree
  body : Option (List Tree)
  length : Nat

/-- Reads the name, the bases and the body of a class or enumeration. Without a body only the name
belongs to it. -/
def TypeHead.ofTrees (trees : List Tree) : TypeHead :=
  let attributes := attributeLength trees
  let size := nameLength true (trees.drop attributes)
  let name := (trees.drop attributes).take size
  let named := attributes + size
  let words := ((trees.drop named).takeWhile (·.isWord "final")).length
  match trees.drop (named + words) with
  | [] => ⟨name, [], none, named⟩
  | t :: rest =>
    match t.inside? "\x7b" with
    | some body => ⟨name, [], some body, named + words + 1⟩
    | none =>
      let bases := rest.takeWhile fun u => !(u.opensWith "\x7b" || u.isMark ";")
      match t.isMark ":", (rest.drop bases.length).head?.bind (·.inside? "\x7b") with
      | true, some body => ⟨name, bases, some body, named + words + bases.length + 2⟩
      | _, _ => ⟨name, [], none, named⟩

/-- How many key words of a class or enumeration come first. -/
def keyLength : List Tree → Nat
  | t :: r =>
    if t.isOneOf classWords then 1
    else if t.isWord "enum" then if r.head?.any (·.isOneOf classWords) then 2 else 1
    else 0
  | [] => 0

/-- The length of a type that is built in by pieces. One of them at most says what is sized;
`sized` tells that it has been met. -/
def piecesLength (sized : Bool) : List Tree → Nat
  | t :: r =>
    if t.isOneOf sizeWords then piecesLength sized r + 1
    else if t.isOneOf typeWords && !sized then piecesLength true r + 1
    else 0
  | [] => 0

/-- The length of a type. -/
def typeLength (trees : List Tree) : Nat :=
  let key := keyLength trees
  let pieces := piecesLength false trees
  if key ≠ 0 then key + (TypeHead.ofTrees (trees.drop key)).length
  else if pieces ≠ 0 then pieces
  else match trees with
    | t :: r =>
      if t.isWord "typename" then nameLength true r + 1
      else if t.isWord "auto" then 1
      else if t.isWord "decltype" then
        if r.head?.any (·.opensWith "(") then nameLength false (r.drop 1) + 2 else 1
      else
        let n := nameLength true trees
        if (trees.drop n).head?.any (·.isWord "auto") then n + 1 else n
    | [] => 0

/-- Where the reading of a parameter list stands: before a type, behind one, in a default value. -/
inductive ParameterState where
  | start | typed | value

/-- Whether the rest of a list in parentheses can be read as parameters. -/
def areParameters (state : ParameterState) : List Tree → Bool
  | [] => true
  | .group l inner _ :: rest =>
    match state with
    | .value => areParameters .value rest
    | .start => l.isMark "[" && areParameters .start rest
    | .typed =>
      (!l.isMark "(" || inner.head?.any (fun t => t.isMark "*" || t.isMark "&" || t.isMark "&&") ||
        areParameters .start inner) && areParameters .typed rest
  | .leaf t :: rest =>
    match state with
    | .value => areParameters (if t.isMark "," then .start else .value) rest
    | .start =>
      if t.isWord "this" then rest.head?.any (·.isKind .word) && areParameters .start rest
      else if t.kind = .word then
        !valueWords.contains t.text &&
          areParameters (if (["const", "volatile", "register", "typename", "enum"] ++ classWords).contains
            t.text then .start else .typed) rest
      else if t.isMark "::" then areParameters .start rest
      else t.isMark "..." && areParameters .typed rest
    | .typed =>
      if t.isMark "," then areParameters .start rest
      else if t.isMark "=" then areParameters .value rest
      else (t.kind == .word || ["*", "&", "&&", "::", "...", "->"].any (t.isMark ·)) &&
        areParameters .typed rest
termination_by trees => sizeOf trees
decreasing_by
  all_goals
    simp only [List.cons.sizeOf_spec, Tree.group.sizeOf_spec, Tree.leaf.sizeOf_spec]
    omega

/-- Whether a parameter of a list needs parentheses around its name. -/
def hasWrappedName : List Tree → Bool
  | t :: g :: rest =>
    (t.isKind .word &&
      ((g.inside? "(").bind (·.head?)).any fun u => u.isMark "*" || u.isMark "&" || u.isMark "&&") ||
      hasWrappedName (g :: rest)
  | _ => false

/-- The marks that stand before an operand or between two. -/
def operatorMarks : List String :=
  ["*", "&", "+", "-", "!", "~", "/", "%", "|", "^", "<", ">", "&&", "||", "==", "!=", "<=", ">=",
    "<<", "::", ".", "->", "?", ":", "=", ","]

/-- Whether the rest of a list in parentheses can be read as arguments; with `start`, an operand is
expected. -/
def areArguments (start : Bool) : List Tree → Bool
  | [] => !start
  | .group l inner _ :: rest =>
    (!l.isMark "(" || inner.isEmpty && !start || areArguments true inner) && areArguments false rest
  | .leaf t :: rest =>
    if operatorMarks.contains t.text && t.kind == .mark then areArguments true rest
    else if !start then t.isMark "..." && areArguments false rest
    else if t.kind = .word then
      !(specifierWords ++ classWords ++ ["enum", "typename"]).contains t.text &&
        (!pieceWords.contains t.text ||
          rest.head?.any fun g => g.opensWith "(" || g.opensWith "\x7b") &&
        areArguments false rest
    else t.kind == .literal && areArguments false rest
termination_by trees => sizeOf trees
decreasing_by
  all_goals
    simp only [List.cons.sizeOf_spec, Tree.group.sizeOf_spec, Tree.leaf.sizeOf_spec]
    omega

/-- The parameters in a list, as they are written; `void` and `...` are none. -/
def parameters (inner : List Tree) : List String :=
  (commaParts inner).filterMap fun part =>
    match part with
    | [] => none
    | t :: _ =>
      let text := Text.collapse (Tree.textOf part)
      if t.isMark "..." ∨ text = "void" then none else some text

/-- Whether something behind a declarator gives it a value. -/
def isInitializer (rest : List Tree) : Bool :=
  rest.any fun t => t.isMark "=" || t.opensWith "\x7b"

/-- Whether a tree is a group of statements in braces, which is never a value. -/
def holdsStatements (t : Tree) : Bool := (t.inside? "\x7b").any fun inner => inner.any (·.isMark ";")

/-- Wraps a declarator in what follows it, and tells whether it is given a value. -/
def behindName (d : Declarator) : List Tree → Declarator × Bool
  | [] => (d, false)
  | t :: rest =>
    match t.inside? "(" with
    | some inner =>
      if areParameters .start inner then
        let (f, b) := behindName (.function d (parameters inner)) rest
        (f, b || rest.isEmpty && hasWrappedName inner && areArguments true inner)
      else (d, true)
    | none =>
      if t.opensWith "[" then behindName .other rest
      else match d with
        | .name _ => if holdsStatements t then (.other, true) else (d, isInitializer (t :: rest))
        | _ => (d, isInitializer (t :: rest))

/-- Reads a declarator, and tells whether it is given a value. -/
def declarator : List Tree → Declarator × Bool
  | [] => (.other, false)
  | t :: rest =>
    if t.isMark "*" then
      let (d, b) := declarator rest
      (.pointer d, b)
    else if t.isMark "&" || t.isMark "&&" then
      let (d, b) := declarator rest
      (.reference d, b)
    else if t.isAttribute || t.isOneOf ["const", "volatile", "restrict", "__restrict", "__restrict__"] then
      declarator rest
    else if t.isKind .operatorName then
      if rest.head?.any (·.opensWith "<") then behindName .other (rest.drop 1)
      else behindName (.operation (Tree.textOf [t])) rest
    else if t.opensWith "(" then behindName .other rest
    else
      let n := nameLength true (t :: rest)
      match t.word? with
      | some w => if n = 1 then behindName (.name w) rest else behindName .other (rest.drop (n - 1))
      | none => (.other, isInitializer rest)

end Header
end Bindery
