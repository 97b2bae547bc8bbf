/-
# Call signatures and keys

A call is identified by the text of its signature, `ns::name(t1,t2,...)`, followed by `<a,b>` when
template arguments are given explicitly. The kind of the call goes into the name:

| call | name |
| --- | --- |
| function | `name` |
| constructor of `T` | `new T` |
| method of `T` | `T.name` |
| operator of `T` | `T.TAG_` |

A class is registered under `class T`. The key of a signature is `f_` and the first 20 bytes of
the BLAKE3 digest of the text, in hexadecimal; it names the artifact built for the signature and
the symbols that the artifact exports. Nothing in a signature is reordered or normalised.
-/

import Bindery.Cpp.Spelling
import Bindery.Cpp.Operator
import Bindery.Digest.Blake3
import Bindery.Text.Digits

namespace Bindery

/-- An explicit template argument. -/
inductive TemplateArg where
  | type (name : String)
  | integer (n : Int)
  /-- Spelled verbatim by the caller. -/
  | raw (spelling : String)
  deriving DecidableEq

/-- The text of a template argument. -/
def TemplateArg.text : TemplateArg → String
  | type name => name
  | integer n => Text.intText n
  | raw spelling => spelling

/-- `<a,b>`; an empty list of arguments is written `<>`, no list is not written. -/
def templateArgsText : Option (List TemplateArg) → String
  | none => ""
  | some args => "<" ++ ",".intercalate (args.map TemplateArg.text) ++ ">"

/-- `ns::name<a,b>`, the C++ spelling of an entity. -/
def templatedName (name : String) (space : Option String) (args : Option (List TemplateArg)) :
    String :=
  Spelling.qualify space name ++ templateArgsText args

/-- A signature text with the name of its artifact. -/
structure Key where
  hash : String
  signature : String
  deriving DecidableEq

namespace Key

/-- Number of digest bytes in a key. -/
def width : Nat := 20

/-- The name of the artifact for a signature text. -/
def hashOf (signature : String) : String :=
  "f_" ++ Text.hexBytes ((Blake3.digest signature.toUTF8.toList).take width)

/-- The key of a signature text. -/
def ofSignature (signature : String) : Key := ⟨hashOf signature, signature⟩

/-- The key under which a class is registered. -/
def ofClass (qualified : String) : Key := ofSignature ("class " ++ qualified)

end Key

/-- The identity of a call. -/
structure Signature where
  name : String
  space : Option String
  argumentTypes : List String
  templateArgs : Option (List TemplateArg)
  deriving DecidableEq

namespace Signature

/-- A call of a free function. -/
def function (name : String) (space : Option String) (types : List String)
    (args : Option (List TemplateArg)) : Signature :=
  ⟨name, space, types, args⟩

/-- A construction of `T`. -/
def constructor (cppType : String) (types : List String) : Signature :=
  ⟨"new " ++ cppType, none, types, none⟩

/-- A call of a method of `T`. -/
def method (cppType name : String) (types : List String) : Signature :=
  ⟨cppType ++ "." ++ name, none, types, none⟩

/-- An application of an operator of `T`. -/
def operator (cppType : String) (op : Operator) (types : List String) : Signature :=
  ⟨cppType ++ "." ++ op.tag, none, types, none⟩

/-- The text of a signature. -/
def text (s : Signature) : String :=
  Spelling.qualify s.space s.name ++ "(" ++ ",".intercalate s.argumentTypes ++ ")" ++
    templateArgsText s.templateArgs

/-- The key of a signature. -/
def key (s : Signature) : Key := Key.ofSignature s.text

end Signature
end Bindery
