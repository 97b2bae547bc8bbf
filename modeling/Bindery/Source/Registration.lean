/-
# Registrations

Three more units. The registration of a class exports how to give an object back, how the compiler
spells the class, and how to read and write a field. Fields go through the accessor template of a
reflected class, which stands in a header of its own; without one, every field is unknown. The
enumeration table has a row for each enumerator of a library.
-/

import Bindery.Reflection.Basic
import Bindery.Source.Wrapper

namespace Bindery
namespace Source

/-- The statement that reports an unknown field. -/
def unknownField : Stmt := .ret (some (.int (-1)))

/-- The body of a field function of class `qualified`: forward to the accessor, if there is one. -/
def forward (accessor : Option String) (qualified method last : String) : List Stmt :=
  match accessor with
  | some class_ =>
    [.ret (some (.call (.ident "bind::guard")
      [.lambda (.call (.ident (accessorName class_ ++ "<" ++ qualified ++ ">::" ++ method))
        [.ident "self", .ident "field", .ident last])]))]
  | none => [unknownField]

/-- The registration of a class. -/
def classUnit (hash qualified : String) (accessor : Option String) (includes : List String) :
    Unit where
  headers := headersOf includes ++ accessor.toList.map fun c => .own (accessorHeader c)
  items := [
    .function {
      ret := "void"
      name := dropSymbol hash
      params := [⟨"void *", "self"⟩]
      body := [.expr (.delete (.cast (qualified ++ " *") (.ident "self")))]
      exported := true },
    .function {
      ret := "const char *"
      name := cppTypeSymbol hash
      body := [.ret (some (.string qualified))]
      exported := true },
    .function {
      ret := "int"
      name := getSymbol hash
      params := [⟨"void *", "self"⟩, ⟨"const char *", "field"⟩, ⟨"bind_value *", "out"⟩]
      body := forward accessor qualified "get" "out"
      exported := true },
    .function {
      ret := "int"
      name := setSymbol hash
      params := [⟨"void *", "self"⟩, ⟨"const char *", "field"⟩, ⟨"const bind_value *", "value"⟩]
      body := forward accessor qualified "set" "value"
      exported := true }]

/-- `std::strcmp(field, "name") == 0` -/
def fieldTest (name : String) : Expr :=
  .binary .eq (.call (.ident "std::strcmp") [.ident "field", .string name]) (.int 0)

/-- The statement that binds the object. -/
def bindObject : Stmt := .declare "T_" .reference "obj" (.deref (.cast "T_ *" (.ident "self")))

/-- The branch that reads a field. -/
def getBranch (f : FieldInfo) : Stmt :=
  .cond (fieldTest f.name)
    [.expr (.call (.ident "bind::ret_field") [.ident "out", .member (.ident "obj") f.name]),
      .ret (some (.int 0))]

/-- The branch that writes a field; a read-only field has none. -/
def setBranch? (f : FieldInfo) : Option Stmt :=
  if f.readOnly then none
  else some (.cond (fieldTest f.name)
    [.expr (.call (.ident "bind::assign")
      [.member (.ident "obj") f.name, .deref (.ident "value")]),
      .ret (some (.int 0))])

/-- An accessor function with a body between binding the object and reporting an unknown field. -/
def accessor (name : String) (last : Param) (branches : List Stmt) : Function where
  ret := "int"
  name := name
  params := [⟨"void *", "self"⟩, ⟨"const char *", "field"⟩, last]
  body := bindObject :: branches ++ [unknownField]
  isStatic := true

/-- The header with the accessor template of a class. -/
def classHeader (class_ : String) (fields : List FieldInfo) (includes : List String) : Unit where
  headers := headersOf includes
  pragmaOnce := true
  items := [.struct {
    name := accessorName class_
    template := some ["class T_"]
    functions := [
      accessor "get" ⟨"bind_value *", "out"⟩ (fields.map getBranch),
      accessor "set" ⟨"const bind_value *", "value"⟩ (fields.filterMap setBranch?)] }]

/-- The name of the enumeration table. -/
def enumTable : String := "bind_enum_table"

/-- The rows of an enumeration. -/
def enumRowsOf (e : EnumInfo) : List Expr :=
  e.enumerators.map fun name =>
    .brace [.string e.qualifiedName, .string name,
      .cast "int64_t" (.ident (e.qualifiedName ++ "::" ++ name))]

/-- The unit of the enumeration table. -/
def enumUnit (enums : List EnumInfo) (includes : List String) : Unit where
  headers := headersOf includes
  items := [
    .table ⟨"bind_enum_entry", enumTable, enums.flatMap enumRowsOf⟩,
    .function {
      ret := "size_t"
      name := enumCount
      body := [.ret (some (.binary .div (.call (.ident "sizeof") [.ident enumTable])
        (.call (.ident "sizeof") [.index (.ident enumTable) (.int 0)])))]
      exported := true },
    .function {
      ret := "const bind_enum_entry *"
      name := enumRows
      body := [.ret (some (.ident enumTable))]
      exported := true }]

end Source
end Bindery
