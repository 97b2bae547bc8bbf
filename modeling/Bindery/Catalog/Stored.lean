/-
# Catalogs as JSON

A catalog is stored as a JSON object with a member for each of its parts. Reading is tolerant in
these ways:

| place | accepted |
| --- | --- |
| any record | members in any order, unknown members; or an array of its parts in order |
| `namespace`, `parent`, `doc` | left out or null where there is none |
| `flags` | left out where there are none |
| a member of a class | an array whose first element is the kind |
| an operator | its name, or an object whose only key is its name, with null or `{}` behind it |

A known member may occur only once. What stands behind an unknown member of a record is only
required to be JSON. A member of a class is read whole before its kind is known; so all that stands
in it must have characters and finite numbers, and must not nest beyond `depthLimit`.
-/

import Bindery.Catalog.Basic
import Bindery.Json.Reader
import Bindery.Json.Printer
import Bindery.Decimal.Read

namespace Bindery

open Json

/-- A member of a JSON object. -/
abbrev JsonMember := Option String × Json

/-- A member with its name. -/
def entry (name : String) (j : Json) : JsonMember := (some name, j)

/-- The documentation as a member, if there is any. -/
def docMember (doc : Option String) : List JsonMember :=
  doc.toList.map fun d => entry "doc" (ofString d)

/-- The stored form of a member of a class. -/
def Member.json : Member → Json
  | .constructor => .object [entry "kind" (ofString "constructor")]
  | .field name readOnly doc =>
    .object ([entry "kind" (ofString "field"), entry "name" (ofString name),
      entry "read_only" (.bool readOnly)] ++ docMember doc)
  | .method name doc =>
    .object ([entry "kind" (ofString "method"), entry "name" (ofString name)] ++ docMember doc)
  | .operator op => .object [entry "kind" (ofString "operator"), entry "op" (ofString op.key)]
  | .alias name target =>
    .object [entry "kind" (ofString "alias"), entry "name" (ofString name),
      entry "target" (ofString target)]

/-- The stored form of a class. -/
def ClassEntry.json (c : ClassEntry) : Json :=
  .object ([entry "name" (ofString c.name), entry "namespace" (ofOption c.space),
    entry "is_template" (.bool c.isTemplate), entry "parent" (ofOption c.parent)] ++
    docMember c.doc ++ [entry "members" (.array (c.members.map Member.json))])

/-- The stored form of a function. -/
def FunctionEntry.json (f : FunctionEntry) : Json :=
  .object ([entry "name" (ofString f.name), entry "namespace" (ofOption f.space),
    entry "overloads" (ofStrings f.overloads)] ++ docMember f.doc)

/-- The stored form of an enumeration. -/
def EnumEntry.json (e : EnumEntry) : Json :=
  .object [entry "name" (ofString e.name), entry "namespace" (ofOption e.space),
    entry "enumerators" (ofStrings e.enumerators)]

/-- The stored form of a catalog. -/
def Catalog.json (m : Catalog) : Json :=
  .object [entry "includes" (ofStrings m.includes), entry "flags" (ofStrings m.flags),
    entry "classes" (.array (m.classes.map ClassEntry.json)),
    entry "functions" (.array (m.functions.map FunctionEntry.json)),
    entry "enums" (.array (m.enums.map EnumEntry.json))]

namespace Stored

/-- The parts of a record in order, `none` where one is left out. In an object a part goes by its
name, and no name may occur twice; in an array, parts may be left out only at its end. -/
def parts? (names : List String) : Json → Option (List (Option Json))
  | .object members =>
    let known := members.filter fun m => m.1.any names.contains
    if members.all (·.1.isSome) ∧ (known.map (·.1)).Nodup then
      some (names.map fun n => (known.find? (·.1 == some n)).map (·.2))
    else none
  | .array items =>
    if items.length ≤ names.length then
      some (items.map some ++ List.replicate (names.length - items.length) none)
    else none
  | _ => none

/-- Whether a record is given by the names of its parts. -/
def isNamed : Json → Bool
  | .object _ => true
  | _ => false

/-- An optional text: null, or left out of a record whose parts are named. -/
def optional? (named : Bool) : Option Json → Option (Option String)
  | some j => option? j
  | none => if named then some none else none

/-- Documentation: null, or left out. -/
def doc? : Option Json → Option (Option String)
  | some j => option? j
  | none => some none

/-- The greatest nesting depth that is read. -/
def depthLimit : Nat := 127

/-- The number of containers around a member of a class. -/
def memberDepth : Nat := 4

/-- Whether a number is finite when it is read as a real. -/
def isFinite (spelling : String) : Bool :=
  match Binary64.read? spelling with
  | some x => x.ratio?.isSome
  | none => false

/-- Reads an operator. -/
def operator? : Json → Option Operator
  | .text (some s) => Operator.ofKey? s
  | .object [(some s, .null)] => Operator.ofKey? s
  | .object [(some s, .object [])] => Operator.ofKey? s
  | _ => none

/-- The kind of a member of a class, and its other parts. -/
def kind? : Json → Option (String × Json)
  | .object members =>
    match members.partition (·.1 == some "kind") with
    | ([(_, .text (some kind))], rest) => some (kind, .object rest)
    | _ => none
  | .array (.text (some kind) :: rest) => some (kind, .array rest)
  | _ => none

/-- Reads the other parts of a member of a class. -/
def memberOf? (kind : String) (body : Json) : Option Member :=
  match kind with
  | "constructor" => (parts? [] body).map fun _ => .constructor
  | "field" => do
    match ← parts? ["name", "read_only", "doc"] body with
    | [some name, some readOnly, doc] =>
      some (.field (← name.string?) (← readOnly.bool?) (← doc? doc))
    | _ => none
  | "method" => do
    match ← parts? ["name", "doc"] body with
    | [some name, doc] => some (.method (← name.string?) (← doc? doc))
    | _ => none
  | "operator" => do
    match ← parts? ["op"] body with
    | [some op] => some (.operator (← operator? op))
    | _ => none
  | "alias" => do
    match ← parts? ["name", "target"] body with
    | [some name, some target] => some (.alias (← name.string?) (← target.string?))
    | _ => none
  | _ => none

/-- Reads a member of a class. -/
def member? (j : Json) : Option Member :=
  if j.isSound isFinite ∧ memberDepth + j.depth ≤ depthLimit then do
    let (kind, body) ← kind? j
    memberOf? kind body
  else none

/-- Reads a class. -/
def class? (j : Json) : Option ClassEntry := do
  match ← parts? ["name", "namespace", "is_template", "parent", "doc", "members"] j with
  | [some name, space, some isTemplate, parent, doc, some members] =>
    some {
      name := ← name.string?
      space := ← optional? (isNamed j) space
      isTemplate := ← isTemplate.bool?
      parent := ← optional? (isNamed j) parent
      doc := ← doc? doc
      members := ← (← members.array?).mapM member? }
  | _ => none

/-- Reads a function. -/
def function? (j : Json) : Option FunctionEntry := do
  match ← parts? ["name", "namespace", "overloads", "doc"] j with
  | [some name, space, some overloads, doc] =>
    some {
      name := ← name.string?
      space := ← optional? (isNamed j) space
      overloads := ← overloads.strings?
      doc := ← doc? doc }
  | _ => none

/-- Reads an enumeration. -/
def enum? (j : Json) : Option EnumEntry := do
  match ← parts? ["name", "namespace", "enumerators"] j with
  | [some name, space, some enumerators] =>
    some {
      name := ← name.string?
      space := ← optional? (isNamed j) space
      enumerators := ← enumerators.strings? }
  | _ => none

/-- Reads a catalog. -/
def catalog? (j : Json) : Option Catalog := do
  match ← parts? ["includes", "flags", "classes", "functions", "enums"] j with
  | [some includes, flags, some classes, some functions, some enums] =>
    some {
      includes := ← includes.strings?
      flags := ← match flags with
        | some flags => flags.strings?
        | none => some []
      classes := ← (← classes.array?).mapM class?
      functions := ← (← functions.array?).mapM function?
      enums := ← (← enums.array?).mapM enum? }
  | _ => none

end Stored

namespace Catalog

/-- Reads a stored catalog. -/
def read? (text : String) : Option Catalog := (Json.read? text).bind Stored.catalog?

/-- The stored text of a catalog. -/
def page (m : Catalog) : String := m.json.page

end Catalog
end Bindery
