/-
# Catalogs

A catalog is what a session knows about a library: for every class its members, for every free
function its overloads, for every enumeration its enumerators, and how to compile against the
library. It is made from a reflection and stored beside the build directory.

A member may be a constructor, a field, a method, an operator or an alias. Constructors and
operators have no name.
-/

import Bindery.Reflection.Basic

namespace Bindery

/-- A member of a class. -/
inductive Member where
  | constructor
  | field (name : String) (readOnly : Bool) (doc : Option String)
  | method (name : String) (doc : Option String)
  | operator (op : Operator)
  /-- `target` is a class name or `Owner.alias`. -/
  | alias (name target : String)
  deriving DecidableEq

/-- The name of a member. -/
def Member.name? : Member → Option String
  | .field name _ _ => some name
  | .method name _ => some name
  | .alias name _ => some name
  | .constructor => none
  | .operator _ => none

/-- A class of a catalog. `parent` is a class name or `Owner.alias`. -/
structure ClassEntry where
  name : String
  space : Option String
  isTemplate : Bool
  parent : Option String
  doc : Option String
  members : List Member
  deriving DecidableEq

/-- A free function of a catalog, with the parameter list of each overload. -/
structure FunctionEntry where
  name : String
  space : Option String
  overloads : List String
  doc : Option String
  deriving DecidableEq

/-- An enumeration of a catalog. -/
structure EnumEntry where
  name : String
  space : Option String
  enumerators : List String
  deriving DecidableEq

/-- What is known about a library. -/
structure Catalog where
  includes : List String
  flags : List String
  classes : List ClassEntry
  functions : List FunctionEntry
  enums : List EnumEntry
  deriving DecidableEq

namespace ClassEntry

/-- The name of a class behind its namespace. -/
def qualifiedName (c : ClassEntry) : String := Spelling.qualify c.space c.name

/-- The entry of a reflected class: its constructor, then fields, methods, operators, aliases. -/
def ofInfo (c : ClassInfo) : ClassEntry where
  name := c.name
  space := c.space
  isTemplate := c.isTemplate
  parent := c.parent
  doc := c.doc
  members :=
    [.constructor] ++ c.fields.map (fun f => .field f.name f.readOnly f.doc) ++
      c.methods.map (fun m => .method m.name m.doc) ++ c.operators.map .operator ++
      c.aliases.map fun a => .alias a.name a.target

end ClassEntry

/-- The entry of a function; its documentation is the first that an overload has. -/
def FunctionEntry.ofInfo (f : FunctionInfo) : FunctionEntry where
  name := f.name
  space := f.space
  overloads := f.overloads.map fun o => "(" ++ ", ".intercalate o.params ++ ")"
  doc := f.overloads.findSome? (·.doc)

/-- The entry of an enumeration. -/
def EnumEntry.ofInfo (e : EnumInfo) : EnumEntry := ⟨e.name, e.space, e.enumerators⟩

namespace Catalog

/-- The catalog of a reflection. -/
def ofReflection (r : Reflection) (includes flags : List String) : Catalog where
  includes := includes
  flags := flags
  classes := r.classes.map .ofInfo
  functions := r.functions.map .ofInfo
  enums := r.enums.map .ofInfo

/-- The first class of a name. -/
def class? (m : Catalog) (name : String) : Option ClassEntry := m.classes.find? (·.name == name)

/-- The first function of a name. -/
def function? (m : Catalog) (name : String) : Option FunctionEntry :=
  m.functions.find? (·.name == name)

/-- The first enumeration with a bare or qualified name. -/
def enum? (m : Catalog) (name : String) : Option EnumEntry :=
  m.enums.find? fun e => e.name == name || Spelling.qualify e.space e.name == name

end Catalog
end Bindery
