/-
# Declarations

A statement is read as a declaration. What it declares of functions and data members is a `Plain`
declaration; a class or enumeration that it defines on the way is kept beside it, since it counts
as a declaration of the same scope.

| statement | declaration |
| --- | --- |
| `const int a, *b;`, `int f(int);`, `S();` | `plain` |
| `int f(int) { … }`, `S() = default;` | `plain`, as a definition |
| `typedef T a, *b;` | `typedef "T" ["a"]`: only plain names |
| `using a = T;` | `alias "a" "T"` |
| `template <class T> …` | `template ["T"] …` |
| `friend …`, `using …`, `static_assert(…)`, directives | `other` |

Documentation belongs to the whole statement, behind the innermost template's comments. A class
has documentation and template parameters of its own only if it is the whole statement.
-/

import Bindery.Header.Statement
import Bindery.Header.Documentation
import Bindery.Cpp.ClassReference

namespace Bindery
namespace Header

/-- A class or enumeration defined with a plain name. `isWhole` tells whether the class is all
that its statement declares. -/
inductive Definition where
  | class (name : String) (isPublic isWhole : Bool) (bases : List String) (body : List Tree)
      (doc : Option String)
  | enumeration (name : String) (enumerators : List String)

/-- A declaration of functions and data members. Without a type it declares a constructor or the
like. -/
structure Plain where
  isStatic : Bool
  isConst : Bool
  isDefinition : Bool
  typeName : Option String
  declarators : List Declarator
  doc : Option String

/-- What a statement declares. -/
inductive Declaration where
  | plain (p : Plain) (defined : Option Definition)
  | typedef (target : String) (names : List String) (defined : Option Definition)
  | alias (name target : String) (defined : Option Definition)
  | template (params : List String) (inner : Declaration)
  | other

/-- The name of a template parameter: of a type, or the declarator of a value. A pack of values goes
by its type, if that is a plain name; a parameter that is itself a template has none. -/
def templateParameter? (part : List Tree) : Option String :=
  let part := part.takeWhile (!·.isMark "=")
  let named := part.drop (specifierLength part)
  let size := typeLength named
  let behind := named.drop size
  let declared := behind.drop (specifierLength behind)
  let byType := (part.drop 1).dropWhile (·.isMark "...")
  if part.head?.any (·.isWord "template") then none
  else if part.head?.any (·.isOneOf ["class", "typename"]) && byType.length ≤ 1 then
    byType.head?.bind (·.word?)
  else if (declared.dropWhile fun t => t.isMark "&" || t.isMark "&&").head?.any (·.isMark "...") then
    match named.take size with
    | [t] => if t.isOneOf ("auto" :: pieceWords ++ typeWords) then none else t.word?
    | _ => none
  else if declared.isEmpty then none
  else some (Tree.textOf declared)

/-- The names of template parameters. -/
def templateParameters (inner : List Tree) : List String :=
  (commaParts inner).filterMap templateParameter?

/-- The references to the bases of a class. -/
def baseReferences (bases : List Tree) : List String :=
  (commaParts bases).map fun part =>
    let name := part.dropWhile (·.isOneOf ["public", "private", "protected", "virtual"])
    Spelling.classReference (Tree.textOf (name.takeWhile (!·.isMark "...")))

/-- The names in the body of an enumeration. -/
def enumerators (body : List Tree) : List String :=
  (commaParts ((unconditional 0 body).filter (!·.isKind .directive))).filterMap
    fun part => part.head?.bind (·.word?)

/-- The class or enumeration that a type defines. `before` tells whether something of the same
statement stands in front of the type, `isWhole` whether nothing of it stands around it, and `lead`
is what stands in front of the whole. -/
def definition? (before isWhole : Bool) (lead : List Trivia) (type : List Tree) :
    Option Definition :=
  let key := keyLength type
  let head := TypeHead.ofTrees (type.drop key)
  match type.head?, head.name, head.body with
  | some t, [name], some body =>
    if t.isWord "enum" then (name.word?).map (.enumeration · (enumerators body))
    else if t.isWord "class" || t.isWord "struct" then
      let doc := if isWhole then documentation lead else if before then documentation t.lead else none
      (name.word?).map fun n =>
        .class n (t.isWord "struct") isWhole (baseReferences head.bases) body doc
    else none
  | _, _, _ => none

/-- Whether a declaration starts without a type: with a destructor, a conversion, an operator, or
a name with its parameters. -/
def lacksType (trees : List Tree) : Bool :=
  let rest := trees.drop (nameLength true trees)
  match rest with
  | t :: r =>
    t.isMark "~" || t.isKind .conversion ||
      (trees.head?.any (·.isKind .operatorName)) ||
      (typeLength trees = nameLength true trees && t.opensWith "(" &&
        !trees.head?.any (·.isOneOf ("auto" :: "decltype" :: pieceWords)) &&
        !r.head?.any fun u => u.opensWith "(" || u.opensWith "[")
  | [] => false

/-- Whether a statement is the definition of a function: it ends with a body, or with `= default`,
`= delete` or, in a class, `= 0`. -/
def isFunctionDefinition (inClass typed : Bool) (trees : List Tree) : Bool :=
  match trees.reverse with
  | t :: u :: v :: _ =>
    t.opensWith "\x7b" ||
      t.isMark ";" && (v.isMark "=" &&
        (u.isOneOf ["default", "delete"] || inClass && Tree.textOf [u] == "0") ||
        !typed && u.opensWith "\x7b")
  | t :: _ => t.opensWith "\x7b"
  | [] => false

/-- The declarators of a statement: between commas, but only the first of a definition. Outside a
class, what is given a value declares nothing here. -/
def declarators (inClass isDefinition : Bool) (trees : List Tree) : List Declarator :=
  let parts := (commaParts (trees.filter (!·.isMark ";"))).map declarator
  if isDefinition then (parts.take 1).map (·.1)
  else parts.map fun (d, hasValue) => if hasValue && !inClass then .other else d

/-- Reads a statement that starts with specifiers, a type or a declarator. -/
def plainOf (inClass : Bool) (lead : List Trivia) (trees : List Tree) :
    Plain × Option Definition :=
  let front := specifierLength trees
  let named := trees.drop front
  let typed := !lacksType named
  let type := if typed then named.take (typeLength named) else []
  let behind := named.drop type.length
  let back := if typed then specifierLength behind else 0
  let specifiers := trees.take front ++ behind.take back
  let isDefinition := isFunctionDefinition inClass typed trees
  let isWhole := front = 0 && (behind.drop back).all (·.isMark ";")
  ({ isStatic := specifiers.any (·.isWord "static")
     isConst := specifiers.any (·.isWord "const")
     isDefinition := isDefinition
     typeName := if typed then some (Tree.textOf type) else none
     declarators := declarators inClass isDefinition (behind.drop back)
     doc := documentation lead },
    definition? (front ≠ 0) isWhole lead type)

/-- Reads a statement behind `typedef`. -/
def typedefOf (lead : List Trivia) (trees : List Tree) : Declaration :=
  let (p, defined) := plainOf false lead trees
  .typedef (p.typeName.getD "") (p.declarators.filterMap fun d =>
    match d with
    | .name s => if typeWords.contains s then none else some s
    | _ => none) defined

/-- Reads a statement behind `using`. -/
def aliasOf (trees : List Tree) : Declaration :=
  match trees with
  | t :: rest =>
    let behind := rest.drop (attributeLength rest)
    match t.word?, behind with
    | some name, e :: target =>
      let target := target.filter (!·.isMark ";")
      if e.isMark "=" then
        .alias name (Tree.textOf target) (definition? false false [] (target.take (typeLength target)))
      else .other
    | _, _ => .other
  | [] => .other

/-- The words that start statements which declare nothing here. -/
def otherWords : List String :=
  ["friend", "namespace", "static_assert", "_Static_assert", "asm", "__asm__", "template",
    "concept"]

/-- Reads a statement. `lead` is what stands in front of it, or in front of the template around
it. What stands under a template reads as it does outside a class. -/
def declaration (inClass : Bool) (lead : List Trivia) (trees : List Tree) : Declaration :=
  match _h : templateHead? trees with
  | some (above, inner, rest) => .template (templateParameters inner) (declaration false above rest)
  | none =>
    let start := trees.drop (specifierLength trees)
    match trees with
    | t :: rest =>
      if t.isKind .directive || start.head?.any (·.isOneOf otherWords) then .other
      else if t.isWord "using" then aliasOf rest
      else if t.isWord "typedef" then typedefOf lead trees
      else if t.isWord "extern" && rest.head?.any (·.isKind .literal) then
        let linked := rest.drop 1
        let (p, d) := plainOf inClass ((linked.head?.map (·.lead)).getD []) linked
        .plain p d
      else
        let (p, d) := plainOf inClass lead trees
        .plain p d
    | [] => .other
termination_by trees.length
decreasing_by exact length_lt_of_templateHead? ‹_›

/-- The declaration of a statement. -/
def Statement.declaration (inClass : Bool) (s : Statement) : Declaration :=
  Header.declaration inClass ((s.trees.head?.map (·.lead)).getD []) s.trees

end Header
end Bindery
