/-
# Statements

The text of a header, or the body of a class, is a sequence of statements. A statement ends with a
semicolon, with the body of a function, or, as an access label, with a colon; a directive is a
statement of its own. Namespaces and linkage blocks are no statements: what stands in them is
listed in place, each statement with the namespace around it.

| a brace group | where |
| --- | --- |
| opens a namespace | behind `namespace` and a name or none |
| opens a linkage block | behind `extern` and a literal |
| ends a statement | behind a parameter list, as the body of a function |
| is a part of the statement | everywhere else: bodies of classes, values, initializers |

An empty body with a semicolon behind it is a part as well, since it reads as an empty value.
-/

import Bindery.Header.Declarator
import Bindery.Cpp.Spelling

namespace Bindery
namespace Header

/-- One statement, with the namespace around it. -/
structure Statement where
  space : Option String
  trees : List Tree

/-- What a brace group is, by what stands in front of it. -/
inductive Brace where
  | namespace (name : String) | linkage | body | part

/-- The length of a constraint behind `requires`; with `start`, an operand is expected. -/
def constraintLength (start : Bool) : List Tree → Nat
  | [] => 0
  | t :: r =>
    if start then
      if t.isMark "!" || t.isMark "::" || t.isWord "requires" then constraintLength true r + 1
      else if t.opensWith "(" || t.isKind .word then constraintLength false r + 1
      else 0
    else if t.isMark "&&" || t.isMark "||" || t.isMark "::" then constraintLength true r + 1
    else if t.opensWith "<" || t.opensWith "\x7b" then constraintLength false r + 1
    else 0

/-- The parameters of a template, what is declared under it, and the template's lead. -/
def templateHead? : List Tree → Option (List Trivia × List Tree × List Tree)
  | t :: .group l inner _ :: r =>
    if t.isWord "template" && l.isMark "<" then
      match r with
      | u :: r' =>
        if u.isWord "requires" then some (t.lead, inner, r'.drop (constraintLength true r'))
        else some (t.lead, inner, r)
      | [] => some (t.lead, inner, r)
    else none
  | _ => none

theorem length_lt_of_templateHead? {trees rest : List Tree} {lead : List Trivia}
    {inner : List Tree} (h : templateHead? trees = some (lead, inner, rest)) :
    rest.length < trees.length := by
  unfold templateHead? at h
  split at h
  · split at h
    · split at h
      · split at h
        · simp only [Option.some.injEq, Prod.mk.injEq] at h
          obtain ⟨-, -, rfl⟩ := h
          simp only [List.length_drop, List.length_cons]
          omega
        · simp only [Option.some.injEq, Prod.mk.injEq] at h
          obtain ⟨-, -, rfl⟩ := h
          simp only [List.length_cons]
          omega
      · simp only [Option.some.injEq, Prod.mk.injEq] at h
        obtain ⟨-, -, rfl⟩ := h
        simp
    · simp at h
  · simp at h

/-- What is declared under all templates in front. -/
def underTemplates (trees : List Tree) : List Tree :=
  match _h : templateHead? trees with
  | some (_, _, rest) => underTemplates rest
  | none => trees
termination_by trees.length
decreasing_by exact length_lt_of_templateHead? ‹_›

/-- The name of the namespace that a brace opens behind `trees`. -/
def namespaceName? (trees : List Tree) : Option String :=
  let trees := trees.drop (specifierLength trees)
  match trees with
  | t :: rest =>
    if t.isWord "namespace" then
      let name := Tree.textOf (rest.filter (!·.isAttribute))
      some (String.ofList (name.toList.filter (!Text.isBlank ·)))
    else none
  | [] => none

/-- Whether a class or enumeration is defined by what ends with a brace group. -/
def endsDefinition (trees : List Tree) : Bool :=
  let trees := trees.drop (specifierLength trees)
  let key := keyLength trees
  let head := TypeHead.ofTrees (trees.drop key)
  key ≠ 0 && head.body.isSome && head.length + key = trees.length

/-- Whether a parameter list stands in a list: parentheses behind a name. -/
def hasParameters : List Tree → Bool
  | t :: g :: r =>
    (g.opensWith "(" && (t.isKind .operatorName || t.opensWith "<" || t.opensWith "(" ||
      t.isKind .word && !t.isOneOf groupWords)) || hasParameters (g :: r)
  | _ => false

/-- Whether the braces behind a list hold requirements: they stand behind `requires`, alone or with
parameters, as an operand of a constraint. A constraint itself may be an expression in
parentheses, with a body behind it. -/
def endsRequirement (before : List Tree) : Bool :=
  match before.reverse with
  | t :: u :: v :: _ =>
    t.isWord "requires" ||
      u.isWord "requires" && t.opensWith "(" &&
        (v.isWord "requires" || ["&&", "||", "!"].any (v.isMark ·))
  | [t, _] => t.isWord "requires"
  | _ => false

/-- What a brace group is behind `before`. -/
def Brace.behind (before : List Tree) (brace : Tree) : Brace :=
  let under := underTemplates before
  match namespaceName? before with
  | some name => .namespace name
  | none =>
    if before.head?.any (·.isWord "extern") && before.length = 2 &&
        before.getLast?.any (·.isKind .literal) then .linkage
    else if endsDefinition (under ++ [brace]) || under.any (·.isMark "=") then .part
    else if hasParameters under || under.any (·.isKind .conversion) then
      if endsRequirement under then .part
      else if under.any (·.isMark ":") &&
          under.getLast?.any (fun t => t.isKind .word || t.opensWith "<") then .part
      else .body
    else .part

/-- A namespace inside another. -/
def nestedSpace (space : Option String) (name : String) : Option String :=
  if name = "" then space
  else match space with
    | none => some name
    | some outer => some (outer ++ "::" ++ name)

/-- Whether trees are an access label up to its colon. -/
def isLabel : List Tree → Bool
  | [t] => t.isOneOf ["public", "private", "protected"]
  | _ => false

/-- The statements of a list in a namespace; `before` holds the statement under way. -/
def statements (space : Option String) (before : List Tree) : List Tree → List Statement
  | [] => if before.isEmpty then [] else [⟨space, before⟩]
  | .leaf t :: rest =>
    if t.kind = .directive then
      if before.isEmpty then ⟨space, [.leaf t]⟩ :: statements space [] rest
      else statements space before rest
    else if t.isMark ";" || t.isMark ":" && isLabel before then
      ⟨space, before ++ [.leaf t]⟩ :: statements space [] rest
    else statements space (before ++ [.leaf t]) rest
  | .group l inner r :: rest =>
    let all := before ++ [.group l inner r]
    if l.isMark "\x7b" then
      match Brace.behind before (.group l inner r) with
      | .namespace name =>
        statements (nestedSpace space name) [] inner ++ statements space [] rest
      | .linkage => statements space [] inner ++ statements space [] rest
      | .body =>
        if inner.isEmpty && rest.head?.any (·.isMark ";") || rest.head?.any (·.isWord "catch") then
          statements space all rest
        else ⟨space, all⟩ :: statements space [] rest
      | .part => statements space all rest
    else statements space all rest
termination_by trees => sizeOf trees
decreasing_by
  all_goals
    simp only [List.cons.sizeOf_spec, Tree.group.sizeOf_spec, Tree.leaf.sizeOf_spec]
    omega

end Header
end Bindery
