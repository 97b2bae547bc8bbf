/-
# Values and arguments

A value is a primitive, an array view, an object of a class, or a class itself. Views and objects
carry a handle. An argument is a value and the way it is passed.

| primitive | C++ type |
| --- | --- |
| truth value, integer, real, text | `bool`, `int`, `double`, `std::string` |
| enumerator | its enumeration |
-/

import Bindery.Cpp.View
import Bindery.Native.Handle
import Bindery.Decimal.Shortest
import Bindery.Text.Quoted

namespace Bindery

/-- A value of an enumeration; the enumerator is missing where no name has the value. -/
structure EnumValue where
  typeName : String
  enumerator : Option String
  value : Int64
  deriving DecidableEq

/-- A value that carries no handle. -/
inductive Primitive where
  | void
  | bool (v : Bool)
  | int (v : Int64)
  | real (v : Binary64)
  | text (v : String)
  | enumerator (v : EnumValue)
  deriving DecidableEq

/-- A live array view. `cppType` is the type's own spelling, `spec` what it means. -/
structure LiveView (ω : Type) where
  cppType : String
  spec : View
  shape : List Nat
  handle : Handle ω

/-- A live object; `className` is the bare name of its class. -/
structure Object (ω : Type) where
  cppType : String
  className : String
  handle : Handle ω

/-- A class, without an object of it. -/
structure TypeObject where
  cppType : String
  className : String
  deriving DecidableEq

/-- Everything that calls take and give. -/
inductive Value (ω : Type) where
  | primitive (p : Primitive)
  | view (v : LiveView ω)
  | object (o : Object ω)
  | type (t : TypeObject)

/-- An argument of a call. -/
inductive Arg (ω : Type) where
  /-- A literal. -/
  | owned (p : Primitive)
  /-- A primitive by value, anything else by reference. -/
  | value (v : Value ω)
  /-- By pointer. -/
  | pointer (v : Value ω)
  /-- Text in a character buffer. -/
  | chars (s : String)

/-- The C++ type of a primitive. -/
def Primitive.cppType : Primitive → String
  | void => "void"
  | bool _ => "bool"
  | int _ => "int"
  | real _ => "double"
  | text _ => "std::string"
  | enumerator v => v.typeName

/-- The type of a character buffer. -/
def charsType : String := "char *"

namespace Value

variable {ω : Type}

/-- The C++ type of a value; a class holds no value. -/
def cppType : Value ω → Except TypeError String
  | primitive p => .ok p.cppType
  | view v => .ok v.cppType
  | object o => .ok o.cppType
  | type t => .error (.typeObject t.cppType)

/-- The handle that a value carries. -/
def handle? : Value ω → Option (Handle ω)
  | view v => some v.handle
  | object o => some o.handle
  | _ => none

/-- The integer that a value is; an enumerator counts as its value. -/
def int? : Value ω → Option Int64
  | primitive (.int v) => some v
  | primitive (.enumerator e) => some e.value
  | _ => none

/-- The real number that a value is. -/
def real? : Value ω → Option Binary64
  | primitive (.real v) => some v
  | _ => none

/-- The truth value that a value is. -/
def bool? : Value ω → Option Bool
  | primitive (.bool v) => some v
  | _ => none

/-- The text that a value is. -/
def text? : Value ω → Option String
  | primitive (.text v) => some v
  | _ => none

/-- Whether a value is void. -/
def isVoid : Value ω → Bool
  | primitive .void => true
  | _ => false

/-- Whether a value is an object. -/
def isObject : Value ω → Bool
  | object _ => true
  | _ => false

/-- Whether a value is a view. -/
def isView : Value ω → Bool
  | view _ => true
  | _ => false

/-- How a value is shown. -/
def render : Value ω → String
  | primitive .void => "(void)"
  | primitive (.bool b) => if b then "true" else "false"
  | primitive (.int i) => Text.intText i.toInt
  | primitive (.real x) => x.text
  | primitive (.text s) => Text.quoted s
  | primitive (.enumerator ⟨enum, some name, _⟩) => enum ++ "::" ++ name
  | primitive (.enumerator ⟨enum, none, v⟩) => enum ++ "(" ++ Text.intText v.toInt ++ ")"
  | view v =>
    "<" ++ v.cppType ++ " shape=[" ++ ", ".intercalate (v.shape.map Text.natText) ++ "] at " ++
      Handle.addressText v.handle.ptr ++ ">"
  | object o => "<" ++ o.cppType ++ " at " ++ Handle.addressText o.handle.ptr ++ ">"
  | type t => "<type " ++ t.cppType ++ ">"

end Value

namespace Arg

variable {ω : Type}

/-- The C++ type of an argument, as it goes into a signature. -/
def cppType : Arg ω → Except TypeError String
  | owned p => .ok p.cppType
  | value v => v.cppType
  | pointer v => v.cppType.map (· ++ "*")
  | chars _ => .ok charsType

end Arg
end Bindery
