/-
# Files

The files of a machine, by absolute path. A file is plain bytes or a library that can be loaded.
There is a directory wherever a path below it names a file or another directory.

A generated text is replaced in two steps, so that nobody reads half of it: it is staged under a
name of its own beside the path, and then published by renaming. Each step is atomic. Two writers
of one path use one staging name.
-/

import Bindery.Host.Path
import Bindery.Text.Utf8

namespace Bindery

/-- What a file is. -/
inductive File (L : Type) where
  | bytes (content : List UInt8)
  | library (lib : L)

/-- Why the file system refused. -/
inductive FileError where
  | missing
  | directory
  deriving DecidableEq

/-- The wording of a refusal. -/
def FileError.message : FileError → String
  | missing => "No such file or directory (os error 2)"
  | directory => "Is a directory (os error 21)"

/-- The files of a machine. The first entry of a path counts. -/
structure Files (L : Type) where
  entries : List (String × File L) := []
  /-- Directories that are there even if nothing lies in them. -/
  bare : List String := []

namespace Files

variable {L : Type}

/-- The file at a path. -/
def get? (files : Files L) (path : String) : Option (File L) :=
  (files.entries.find? (·.1 == path)).map (·.2)

/-- Without the file at a path. -/
def remove (files : Files L) (path : String) : Files L :=
  { files with entries := files.entries.filter (·.1 != path) }

/-- With a file at a path, in the place of any that was there. -/
def put (files : Files L) (path : String) (file : File L) : Files L :=
  { files with entries := (path, file) :: (files.remove path).entries }

/-- What the paths of a directory begin with. -/
def below (dir : String) : String := if dir = "/" then dir else dir ++ "/"

/-- The rest of a path behind a directory that it lies in. -/
def within? (dir path : String) : Option String :=
  (Text.afterStart? (below dir).toList path.toList).map String.ofList

/-- Whether there is a file at a path. -/
def isFile (files : Files L) (path : String) : Bool := (files.get? path).isSome

/-- Whether there is a directory at a path. -/
def isDirectory (files : Files L) (path : String) : Bool :=
  path = "/" || files.bare.contains path ||
    (files.entries.map (·.1) ++ files.bare).any fun p => (within? path p).isSome

/-- The bytes of the file at a path. -/
def read? (files : Files L) (path : String) : Option (List UInt8) :=
  match files.get? path with
  | some (.bytes content) => some content
  | _ => none

/-- The bytes of the file at a path, or why there are none. -/
def contents (files : Files L) (path : String) : Except FileError (List UInt8) :=
  match files.read? path with
  | some content => .ok content
  | none => .error (if files.isDirectory path then .directory else .missing)

/-- Writes bytes to a path. -/
def write (files : Files L) (path : String) (content : List UInt8) : Except FileError (Files L) :=
  if files.isDirectory path then .error .directory else .ok (files.put path (.bytes content))

/-- Moves the file at a path to another. -/
def rename (files : Files L) (path target : String) : Except FileError (Files L) :=
  match files.get? path with
  | none => .error .missing
  | some file =>
    if files.isDirectory target then .error .directory
    else .ok ((files.remove path).put target file)

/-- Where what will be at a path is staged. -/
def staging (path : String) : String := path ++ ".tmp"

/-- Stages what will be at a path. -/
def stage (files : Files L) (path : String) (content : List UInt8) :
    Except FileError (Files L) :=
  files.write (staging path) content

/-- Publishes what is staged for a path. -/
def publish (files : Files L) (path : String) : Except FileError (Files L) :=
  files.rename (staging path) path

/-- Stages and publishes bytes. -/
def replace (files : Files L) (path : String) (content : List UInt8) :
    Except FileError (Files L) := do
  let files ← files.stage path content
  files.publish path

/-- Stages and publishes bytes as far as that goes: what cannot be published stays staged. -/
def save (files : Files L) (path : String) (content : List UInt8) : Files L :=
  match files.stage path content with
  | .error _ => files
  | .ok staged =>
    match staged.publish path with
    | .ok published => published
    | .error _ => staged

/-- The paths of the files beneath a directory, as far as they go beyond it. -/
def beneath (files : Files L) (dir : String) : List String :=
  files.entries.filterMap fun e => within? dir e.1

/-- The names of the files that lie in a directory itself, sorted. -/
def names (files : Files L) (dir : String) : List String :=
  ((files.beneath dir).filter fun name => !name.toList.contains '/').mergeSort fun a b => decide (a ≤ b)

/-- Follows the parts of a path from a directory on. -/
def follow? (files : Files L) (here : String) : List (List Char) → Option String
  | [] => some here
  | part :: rest =>
    if !files.isDirectory here then none
    else if Path.isIdle part then files.follow? here rest
    else
      let next := Path.normalize (Path.join here (String.ofList part))
      if files.isFile next || files.isDirectory next then files.follow? next rest else none

/-- The plain absolute path of what an absolute path leads to, if every step on the way is there. -/
def resolve? (files : Files L) (path : String) : Option String :=
  files.follow? "/" (Text.fields Path.isSeparator path.toList)

theorem get?_put (files : Files L) (path other : String) (file : File L) :
    (files.put path file).get? other = if path = other then some file else files.get? other := by
  unfold get? put remove
  by_cases h : path = other
  · simp [h]
  · rw [List.find?_cons_of_neg (by simpa using h)]
    simp only [h, if_false]
    congr 1
    rw [List.find?_filter]
    congr 1
    funext e
    by_cases he : e.1 = other
    · simpa [he] using fun hp => h hp.symm
    · simp [he]

theorem get?_remove (files : Files L) (path other : String) :
    (files.remove path).get? other = if path = other then none else files.get? other := by
  unfold get? remove
  rw [List.find?_filter]
  by_cases h : path = other
  · subst h
    simp
  · simp only [h, if_false]
    congr 2
    funext e
    by_cases he : e.1 = other
    · simpa [he] using fun hp => h hp.symm
    · simp [he]

end Files
end Bindery
