/-
# Paths

A path has a head and a body. The head is `/` for an absolute path, `.` for one that starts with
the current directory, and empty otherwise. The body is cut at `/`; empty parts and `.` at its end
do not count, and a path keeps its spelling otherwise.

| path | directory | file name |
| --- | --- | --- |
| `a/b.hpp`, `a/b.hpp/`, `a/b.hpp/.` | `a` | `b.hpp` |
| `/a.hpp` | `/` | `a.hpp` |
| `./a.hpp` | `.` | `a.hpp` |
| `a.hpp` | the empty path | `a.hpp` |
| `x/..` | `x` | none |
| `/`, the empty path | none | none |
-/

import Bindery.Text.Blank

namespace Bindery
namespace Path

open Text

/-- Whether a character separates the parts of a path. -/
def isSeparator (c : Char) : Bool := c == '/'

/-- Whether a path starts at the root. -/
def isAbsolute (path : String) : Bool := path.toList.head? == some '/'

/-- The head of a path and its body. -/
def split : List Char → List Char × List Char
  | '/' :: r => (['/'], r)
  | ['.'] => (['.'], [])
  | '.' :: '/' :: r => (['.'], '/' :: r)
  | cs => ([], cs)

/-- Whether a part of a body does not count. -/
def isIdle (part : List Char) : Bool := part == [] || part == ['.']

/-- The parts of a body, last first, from the last one that counts. -/
def partsBack (body : List Char) : List (List Char) :=
  (fields isSeparator body).reverse.dropWhile isIdle

/-- A body from its parts, last first. -/
def bodyOf (back : List (List Char)) : List Char := ['/'].intercalate back.reverse

/-- The last part of a path, unless it is `..`. -/
def fileName? (path : String) : Option String :=
  match partsBack (split path.toList).2 with
  | [] => none
  | last :: _ => if last = ['.', '.'] then none else some (String.ofList last)

/-- The path without its last part. -/
def parent? (path : String) : Option String :=
  let (head, body) := split path.toList
  match partsBack body with
  | [] => if head = ['.'] then some "" else none
  | _ :: back => some (String.ofList (head ++ bodyOf (back.dropWhile isIdle)))

/-- A path inside a directory; an absolute path is not moved. -/
def join (dir path : String) : String :=
  if isAbsolute path || dir = "" then path
  else if dir.toList.getLast? = some '/' then dir ++ path
  else dir ++ "/" ++ path

/-- The parts of a path that name something, with `..` taking back the part before it. -/
def steps (path : String) : List (List Char) :=
  (fields isSeparator path.toList).foldl
    (fun done part =>
      if isIdle part then done else if part = ['.', '.'] then done.dropLast else done ++ [part])
    []

/-- The absolute path without empty parts, `.` and `..`. -/
def normalize (path : String) : String :=
  String.ofList ('/' :: ['/'].intercalate (steps path))

end Path
end Bindery
