/-
# What a header declares

Reading a header gives the classes, free functions and enumerations it declares, in the order of
their declarations. Functions are grouped by name: a group keeps the namespace of its first
overload and lists all overloads in order. Reading several headers merges what each one gives,
which is the same as reading them as one stream of entities (`ofEntities`).
-/

import Bindery.Cpp.Spelling
import Bindery.Cpp.Operator

namespace Bindery

/-- A data member. `typeName` is the type as it is declared, without `const`. -/
structure FieldInfo where
  name : String
  typeName : String
  readOnly : Bool
  doc : Option String
  deriving DecidableEq

/-- A member function or an overload of a free function, with its parameters as declared. -/
structure MethodInfo where
  name : String
  params : List String
  doc : Option String
  deriving DecidableEq

/-- A nested type alias; `target` is a class reference. -/
structure AliasInfo where
  name : String
  target : String
  deriving DecidableEq

/-- A class with its public members. -/
structure ClassInfo where
  name : String
  space : Option String
  isTemplate : Bool := false
  templateParams : List String := []
  parent : Option String := none
  fields : List FieldInfo := []
  methods : List MethodInfo := []
  operators : List Operator := []
  aliases : List AliasInfo := []
  doc : Option String := none
  deriving DecidableEq

/-- All overloads of a free function. -/
structure FunctionInfo where
  name : String
  space : Option String
  overloads : List MethodInfo
  deriving DecidableEq

/-- An enumeration. -/
structure EnumInfo where
  name : String
  space : Option String
  enumerators : List String
  deriving DecidableEq

namespace EnumInfo

/-- The name of an enumeration behind its namespace. -/
def qualifiedName (e : EnumInfo) : String := Spelling.qualify e.space e.name

end EnumInfo

namespace ClassInfo

/-- Whether a class declares an operator. -/
def hasOperator (c : ClassInfo) (op : Operator) : Bool := c.operators.contains op

/-- The field of a name that a class declares itself. -/
def field? (c : ClassInfo) (name : String) : Option FieldInfo := c.fields.find? (·.name == name)

end ClassInfo

/-- One declaration of a header. -/
inductive Entity where
  | class (c : ClassInfo)
  | function (space : Option String) (overload : MethodInfo)
  | enumeration (e : EnumInfo)
  deriving DecidableEq

/-- What one header or several declare. -/
structure Reflection where
  classes : List ClassInfo := []
  functions : List FunctionInfo := []
  enums : List EnumInfo := []
  deriving DecidableEq

namespace Reflection

/-- Adds a group of overloads: to the group of that name, or as a new last group. -/
def addGroup (groups : List FunctionInfo) (g : FunctionInfo) : List FunctionInfo :=
  match groups with
  | [] => [g]
  | h :: r =>
    if h.name = g.name then { h with overloads := h.overloads ++ g.overloads } :: r
    else h :: addGroup r g

/-- Adds one overload of a free function. -/
def addOverload (r : Reflection) (space : Option String) (overload : MethodInfo) : Reflection :=
  { r with functions := addGroup r.functions ⟨overload.name, space, [overload]⟩ }

/-- Adds one declaration. -/
def add (r : Reflection) : Entity → Reflection
  | .class c => { r with classes := r.classes ++ [c] }
  | .function space overload => r.addOverload space overload
  | .enumeration e => { r with enums := r.enums ++ [e] }

/-- What a list of declarations declares. -/
def ofEntities (entities : List Entity) : Reflection := entities.foldl add {}

/-- What two headers declare together. -/
def merge (r s : Reflection) : Reflection where
  classes := r.classes ++ s.classes
  functions := s.functions.foldl addGroup r.functions
  enums := r.enums ++ s.enums

/-- The first class of a name. -/
def class? (r : Reflection) (name : String) : Option ClassInfo := r.classes.find? (·.name == name)

/-- The class that a class names plainly as its parent; a parent reached through a nested alias
does not count. -/
def parent? (r : Reflection) (c : ClassInfo) : Option ClassInfo :=
  c.parent.bind fun p => if p.toList.contains '.' then none else r.class? p

/-- A class and its plain ancestors, nearest first, cut where a name repeats. At most `n` of them
are listed. -/
def ancestry (r : Reflection) : Nat → List String → Option ClassInfo → List ClassInfo
  | n + 1, seen, some c =>
    if c.name ∈ seen then [] else c :: ancestry r n (c.name :: seen) (r.parent? c)
  | _, _, _ => []

/-- Adds the fields whose names are not there yet. -/
def addFields (fields : List FieldInfo) (more : List FieldInfo) : List FieldInfo :=
  more.foldl (fun fs f => if fs.any (·.name == f.name) then fs else fs ++ [f]) fields

/-- The fields of a class followed by those it inherits, each name once. -/
def visibleFields (r : Reflection) (name : String) : List FieldInfo :=
  (r.ancestry r.classes.length [] (r.class? name)).foldl (fun fs c => addFields fs c.fields) []

end Reflection
end Bindery
