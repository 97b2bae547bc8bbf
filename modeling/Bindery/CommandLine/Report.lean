/-
# Reports

What the tool prints: a table with a title for what was set up and for what has been built, lines
for each thing listed, and for an error what happened with its causes, each set in by four columns
and, if there are several, numbered.
-/

import Bindery.Call.EnumTable
import Bindery.Call.Signature
import Bindery.Catalog.Basic
import Bindery.Store.Index
import Bindery.Text.Digits

namespace Bindery
namespace Report

open Text

/-- Lines of text, each with its line feed. -/
def lines (ls : List String) : String := String.join (ls.map (· ++ "\n"))

/-- So many blanks. -/
def blanks (n : Nat) : String := String.ofList (List.replicate n ' ')

/-- A text at the left of a column. -/
def left (width : Nat) (s : String) : String := s ++ blanks (width - s.length)

/-- A text at the right of a column. -/
def right (width : Nat) (s : String) : String := blanks (width - s.length) ++ s

/-- The rule above and below the parts of a table. -/
def rule : String := "+" ++ String.ofList (List.replicate 42 '-') ++ "+"

/-- The title of a table. -/
def title (s : String) : String := "| " ++ left 41 s ++ "|"

/-- A row of a table: a name and a number. -/
def row (name : String) (n : Nat) : String := "| " ++ left 15 name ++ ": " ++ right 22 (natText n) ++ " |"

/-- A class with the number of its members. -/
def classLine (c : ClassEntry) : String :=
  "  class " ++ c.qualifiedName ++ (if c.isTemplate then " <template>" else "") ++
    (match c.parent with | some p => " : " ++ p | none => "") ++
    " (" ++ natText c.members.length ++ " members)"

/-- A function with the number of its overloads. -/
def functionLine (f : FunctionEntry) : String :=
  "  fn    " ++ Spelling.qualify f.space f.name ++ " (" ++ natText f.overloads.length ++ " overloads)"

/-- An enumeration with its enumerators. -/
def enumLine (e : EnumEntry) : String :=
  "  enum  " ++ Spelling.qualify e.space e.name ++ " \x7b" ++ ", ".intercalate e.enumerators ++ "\x7d"

/-- What an output directory was set up for. -/
def catalog (headers : Nat) (m : Catalog) : String :=
  lines ([rule, title "LAZYBIND REFLECT", rule, row "Headers" headers,
      row "Classes" m.classes.length, row "Functions" m.functions.length,
      row "Enums" m.enums.length, rule] ++
    m.classes.map classLine ++ m.functions.map functionLine ++ m.enums.map enumLine)

/-- The key of a call. -/
def key (k : Key) : String :=
  lines ["signature : " ++ k.signature, "key       : " ++ k.hash]

/-- The title of the table of artifacts. -/
def artifactsTitle : String := lines [rule, title "LAZYBIND CACHE", rule]

/-- An artifact. -/
def artifactLine (e : IndexEntry) : String :=
  "  " ++ e.hash ++ "  " ++ left 12 (IndexEntry.label e.kind) ++ " " ++ e.signature ++ "  -> " ++
    e.returnType

/-- The artifacts of an index. -/
def artifacts (entries : Index) : String :=
  lines ([row "Artifacts" entries.length, rule] ++ entries.map artifactLine)

/-- What stands there if a build directory has no index. -/
def noArtifacts (dir : String) : String :=
  lines [row "Artifacts" 0, rule, "No artifacts recorded in " ++ dir ++ "."]

/-- An enumerator. -/
def enumeratorLine (r : EnumRow) : String :=
  "  " ++ r.typeName ++ "::" ++ r.enumerator ++ " = " ++ intText r.value.toInt

/-- The enumerators of a table. -/
def enumerators (table : EnumTable) : String :=
  lines (["", "ENUMS:"] ++ (if table.types.isEmpty then ["  (none)"] else []) ++
    table.rows.map enumeratorLine)

/-- How the tool is used. -/
def usage : String :=
  lines ["Usage: lazybind [--output DIR] [--driver make|direct] COMMAND", "",
    "  reflect HEADERS... [--flag FLAG]",
    "  hash NAME [--arg TYPE] [--namespace NS] [--template ARG] [--constructor]",
    "  call FUNCTION [ARGS]... [--namespace NS] [--template ARG]",
    "  cache [--enums]"]

/-- A cause, set in; `first` stands in front of its first line, `next` in front of the others. -/
def setIn (first next cause : String) : String :=
  first ++ ("\n" ++ next).intercalate (cause.splitOn "\n")

/-- Numbered causes. -/
def numbered (n : Nat) : List String → List String
  | [] => []
  | cause :: r => setIn (right 5 (natText n) ++ ": ") (blanks 7) cause :: numbered (n + 1) r

/-- What happened, and what caused it. -/
def error : List String → String
  | [] => ""
  | [what] => lines ["Error: " ++ what]
  | [what, cause] =>
    lines ["Error: " ++ what, "", "Caused by:", setIn (blanks 4) (blanks 4) cause]
  | what :: causes => lines (["Error: " ++ what, "", "Caused by:"] ++ numbered 0 causes)

end Report
end Bindery
