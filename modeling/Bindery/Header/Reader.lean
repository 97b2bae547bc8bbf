/-
# Reading a header

The entities of a header are its classes, free functions and enumerations at namespace scope, in
the order in which they start. A function counts by the first declarator of its declaration, if
that is a plain name with parameters and is given no value; without a type only a definition
counts. A class with more than one base cannot be reflected.
-/

import Bindery.Header.Members
import Bindery.Text.Quoted

namespace Bindery

/-- Why a header cannot be reflected. -/
inductive Unsupported where
  | multipleInheritance (name : String) (parents : List String)
  deriving DecidableEq

/-- The message of an error. -/
def Unsupported.message : Unsupported → String
  | .multipleInheritance name parents =>
    "Multiple Inheritance currently not supported: `" ++ name ++ "` derives from " ++
      Text.quotedList parents

namespace Header

/-- The class that a definition stands for; `template` holds the parameters of the template around
it. -/
def classInfo (space : Option String) (template : Option (List String)) (name : String)
    (isPublic : Bool) (bases : List String) (body : List Tree) (doc : Option String) :
    Except Unsupported ClassInfo :=
  if bases.length > 1 then .error (.multipleInheritance name bases)
  else .ok (ClassInfo.addItems isPublic
    { name := name, space := space, isTemplate := template.isSome,
      templateParams := template.getD [], parent := bases.head?, doc := doc } (bodyItems body))

/-- The entities that a definition gives. -/
def definedEntities (space : Option String) (template : Option (List String)) :
    Option Definition → Except Unsupported (List Entity)
  | none => .ok []
  | some (.enumeration name names) => .ok [.enumeration ⟨name, space, names⟩]
  | some (.class name isPublic isWhole bases body doc) =>
    (classInfo space (if isWhole then template else none) name isPublic bases body doc).map
      ([.class ·])

/-- The free function that a declaration declares. -/
def functionEntities (space : Option String) (p : Plain) : List Entity :=
  match p.declarators with
  | [] => []
  | d :: _ =>
    if p.typeName.isNone && !p.isDefinition then []
    else match d.function? with
      | some (.name s, params) => [.function space ⟨s, params, p.doc⟩]
      | _ => []

/-- The entities that a declaration at namespace scope gives. -/
def entities (space : Option String) (template : Option (List String)) :
    Declaration → Except Unsupported (List Entity)
  | .plain p defined =>
    (definedEntities space template defined).map (· ++ functionEntities space p)
  | .typedef _ _ defined => definedEntities space none defined
  | .alias _ _ defined => definedEntities space none defined
  | .template params inner => entities space (some params) inner
  | .other => .ok []

/-- The entities of a header. -/
def read (bytes : List UInt8) : Except Unsupported (List Entity) := do
  let found ← (statements none [] (trees bytes)).mapM fun s => entities s.space none (s.declaration false)
  return found.flatten

end Header

namespace Reflection

/-- What a header declares. -/
def ofHeader (bytes : List UInt8) : Except Unsupported Reflection :=
  (Header.read bytes).map ofEntities

/-- What several headers declare together. -/
def ofHeaders (headers : List (List UInt8)) : Except Unsupported Reflection :=
  (headers.mapM ofHeader).map fun rs => rs.foldl merge {}

end Reflection
end Bindery
