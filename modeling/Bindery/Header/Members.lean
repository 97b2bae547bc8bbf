/-
# Members of a class

The body of a class is a list of access labels and declarations. A class starts out private, a
struct public; a label changes that for what follows it. Only public declarations contribute:

* a data member is declared with a type, is not static, and is a plain name or one pointer or
  reference to it; it is read-only if it is declared `const` and is no pointer;
* a method is a member function with a plain name other than the class's own; a name counts where
  it occurs first;
* an operator counts once;
* an alias refers to a class, without the signs of pointers and references and a trailing `const`.

A static function counts only where it is defined. Under a template only functions and aliases
count.
-/

import Bindery.Header.Declaration
import Bindery.Reflection.Basic

namespace Bindery
namespace Header

/-- One entry of a class body: a label that starts a public or hidden region, or a declaration. -/
inductive BodyItem where
  | access (isPublic : Bool)
  | member (d : Declaration)

/-- The entry that a statement of a class body is. -/
def BodyItem.ofStatement (s : Statement) : BodyItem :=
  match s.trees with
  | [t, c] => if isLabel [t] && c.isMark ":" then .access (t.isWord "public")
    else .member (s.declaration true)
  | _ => .member (s.declaration true)

/-- The entries of a class body. What stands under conditions of the preprocessor is no part of
it. -/
def bodyItems (body : List Tree) : List BodyItem :=
  (statements none [] (unconditional 0 body)).map BodyItem.ofStatement

namespace Declarator

/-- The function that a declarator declares, through pointers and references to its result. -/
def function? : Declarator → Option (Declarator × List String)
  | .function d params => some (d, params)
  | .pointer d => d.function?
  | .reference d => d.function?
  | _ => none

/-- The name of a data member, and whether it is a pointer. -/
def dataName? : Declarator → Option (String × Bool)
  | .name s => some (s, false)
  | .pointer (.name s) => some (s, true)
  | .reference (.name s) => some (s, false)
  | _ => none

end Declarator
end Header

namespace ClassInfo

open Header

/-- A name that stands for an attribute of functions and is never a data member. -/
def deviceMark : String := "__device__"

/-- Adds a method unless its name is the class's own or is there already. -/
def addMethod (c : ClassInfo) (m : MethodInfo) : ClassInfo :=
  if m.name = c.name ∨ c.methods.any (·.name == m.name) then c
  else { c with methods := c.methods ++ [m] }

/-- Adds the operators that are not there yet. -/
def addOperators (c : ClassInfo) (ops : List Operator) : ClassInfo :=
  ops.foldl
    (fun c op => if c.operators.contains op then c else { c with operators := c.operators ++ [op] }) c

/-- Adds what a member function of this declarator is. -/
def addFunction (c : ClassInfo) (d : Declarator) (doc : Option String) : ClassInfo :=
  match d.function? with
  | some (.name s, params) => c.addMethod ⟨s, params, doc⟩
  | some (.operation s, params) => c.addOperators (Operator.ofMember s params.length)
  | _ => c

/-- The class reference that the target of an alias stands for: signs of pointers and references
are left out, then blanks and the word `const` at the end. -/
def aliasTarget (target : String) : String :=
  let plain := Text.trimEnd (target.toList.filter fun c => c != '&' && c != '*')
  String.ofList (Spelling.classReferenceChars (Text.withoutEnds "const".toList plain))

/-- Adds an alias unless its target is empty. -/
def addAlias (c : ClassInfo) (name target : String) : ClassInfo :=
  let reference := aliasTarget target
  if reference = "" then c else { c with aliases := c.aliases ++ [⟨name, reference⟩] }

/-- Adds what one declarator of a declaration without a body declares. -/
def addDeclarator (inTemplate : Bool) (p : Plain) (c : ClassInfo) (d : Declarator) : ClassInfo :=
  if d.function?.isSome then c.addFunction d p.doc
  else match p.typeName, d.dataName? with
    | some type, some (name, isPointer) =>
      if inTemplate ∨ name = deviceMark then c
      else { c with fields := c.fields ++ [⟨name, type, p.isConst && !isPointer, p.doc⟩] }
    | _, _ => c

/-- Adds what a public declaration declares. -/
def addMember (inTemplate : Bool) (c : ClassInfo) : Declaration → ClassInfo
  | .plain p _ =>
    if p.isDefinition then
      match p.declarators with
      | d :: _ => c.addFunction d p.doc
      | [] => c
    else if p.isStatic then c
    else p.declarators.foldl (addDeclarator inTemplate p) c
  | .typedef target names _ => names.foldl (fun c name => c.addAlias name target) c
  | .alias name target _ => c.addAlias name target
  | .template _ inner => c.addMember true inner
  | .other => c

/-- Adds what the public entries of a class body declare. -/
def addItems (isPublic : Bool) (c : ClassInfo) : List BodyItem → ClassInfo
  | [] => c
  | .access p :: more => c.addItems p more
  | .member d :: more => (if isPublic then c.addMember false d else c).addItems isPublic more

end ClassInfo
end Bindery
