/-
# References to classes

A base class or the target of an alias is spelled as C++ spells types, but a proxy refers to a
class by its bare name, or, when a template instance has to be consulted for a nested alias, by
`Owner.alias`:

| spelling | reference |
| --- | --- |
| `Grid`, `ns::Vector<double>` | `Grid`, `Vector` |
| `Base<T>::type`, `typename Base<T>::type` | `Base.type` |

A spelling names a nested alias when it starts with `typename`, or when an earlier segment has
template arguments and the last segment closes none.
-/

import Bindery.Cpp.Spelling

namespace Bindery
namespace Spelling

open Text

/-- The keyword that announces a dependent name. -/
def typenameWord : List Char := "typename".toList

/-- The reference made of the segments of a spelling. -/
def referenceOf (nested : Bool) (parts : List (List Char)) : List Char :=
  match parts.reverse with
  | [] => []
  | [only] => only
  | last :: owner :: _ => if nested then owner ++ '.' :: last else last

/-- The class reference that a spelling stands for. -/
def classReferenceChars (cs : List Char) : List Char :=
  let spelled := trim cs
  let announced := typenameWord.isPrefixOf spelled
  let plain := (afterStart? typenameWord spelled).getD spelled
  let compact := plain.filter (!isBlank ·)
  let nested := announced || (compact.contains '<' && !(lastSegment compact).contains '>')
  referenceOf nested ((segments (outside 0 compact)).filter (· ≠ []))

/-- The class reference that a spelling stands for. -/
def classReference (s : String) : String := String.ofList (classReferenceChars s.toList)

end Spelling
end Bindery
