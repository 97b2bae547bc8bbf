/-
# JSON values

A value as its text gives it: members of an object keep their order, and a repeated key stays. A
number keeps its spelling. A text is `none` when it escapes half of a surrogate pair; such a text
is well-formed, but it has no characters.
-/

namespace Bindery

/-- A JSON value. -/
inductive Json where
  | null
  | bool (b : Bool)
  | number (spelling : String)
  | text (s : Option String)
  | array (items : List Json)
  | object (members : List (Option String × Json))

namespace Json

/-- A text with characters. -/
def ofString (s : String) : Json := .text (some s)

/-- A list of texts. -/
def ofStrings (texts : List String) : Json := .array (texts.map ofString)

/-- A text, or null where there is none. -/
def ofOption : Option String → Json
  | none => .null
  | some s => ofString s

/-- The characters of a text. -/
def string? : Json → Option String
  | .text s => s
  | _ => none

/-- A truth value. -/
def bool? : Json → Option Bool
  | .bool b => some b
  | _ => none

/-- The elements of an array. -/
def array? : Json → Option (List Json)
  | .array items => some items
  | _ => none

/-- An array of texts. -/
def strings? (j : Json) : Option (List String) := j.array?.bind (·.mapM string?)

/-- A text or null. -/
def option? : Json → Option (Option String)
  | .null => some none
  | .text (some s) => some (some s)
  | _ => none

mutual

/-- The nesting depth of arrays and objects. -/
def depth : Json → Nat
  | .array items => depthItems items + 1
  | .object members => depthMembers members + 1
  | _ => 0

/-- The greatest depth among elements. -/
def depthItems : List Json → Nat
  | [] => 0
  | j :: r => max (depth j) (depthItems r)

/-- The greatest depth among members. -/
def depthMembers : List (Option String × Json) → Nat
  | [] => 0
  | (_, j) :: r => max (depth j) (depthMembers r)

end

mutual

/-- Whether all texts in a value, keys included, have characters, and all numbers satisfy `p`. -/
def isSound (p : String → Bool) : Json → Bool
  | .null => true
  | .bool _ => true
  | .number spelling => p spelling
  | .text s => s.isSome
  | .array items => soundItems p items
  | .object members => soundMembers p members

/-- Whether all elements are sound. -/
def soundItems (p : String → Bool) : List Json → Bool
  | [] => true
  | j :: r => isSound p j && soundItems p r

/-- Whether all members are sound. -/
def soundMembers (p : String → Bool) : List (Option String × Json) → Bool
  | [] => true
  | (key, j) :: r => key.isSome && isSound p j && soundMembers p r

end

end Json
end Bindery
