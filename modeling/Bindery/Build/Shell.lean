/-
# Programs known by what they do

A few programs are so simple that what they do can be said outright: `true`, `false`, `echo`, and
`sh -c` with a script of simple commands. A script is a sequence of commands, separated by `;` or
line feeds. A command is a sequence of words; a word may be quoted, and `$@` in it stands for the
arguments behind the script. A command may send what it says to the error output by `>&2`.

| command | does |
| --- | --- |
| `exit n` | ends the script with code `n`, or with the last code |
| `echo words` | says the words |
| `pwd` | says the directory |
| `true`, `:`, `false` | succeeds, succeeds, fails |

Only what is said on the error output is kept.
-/

import Bindery.Build.Toolchain

namespace Bindery
namespace Shell

open Text

/-- A token of a script. -/
inductive Token where
  | word (cs : List Char)
  /-- All arguments, each a word of its own. -/
  | args
  | separator
  | toError
  deriving DecidableEq

/-- How the characters that follow are read. -/
inductive Mode where
  | plain | single | double
  deriving DecidableEq

/-- The word under way, if there is one, as a token. -/
def flush : Option (List Char) → List Token
  | some word => [.word word]
  | none => []

/-- Reads a script. `word` is the word under way. -/
def scan (mode : Mode) (word : Option (List Char)) : List Char → List Token
  | [] => flush word
  | '$' :: '@' :: r =>
    if mode = .single then scan mode (some (word.getD [] ++ ['$', '@'])) r
    else flush (word.filter (· ≠ [])) ++ .args :: scan mode none r
  | '>' :: '&' :: '2' :: r =>
    if mode = .plain then flush word ++ .toError :: scan mode none r
    else scan mode (some (word.getD [] ++ ['>', '&', '2'])) r
  | '"' :: r =>
    match mode with
    | .plain => scan .double (some (word.getD [])) r
    | .double => scan .plain word r
    | .single => scan mode (some (word.getD [] ++ ['"'])) r
  | '\'' :: r =>
    match mode with
    | .plain => scan .single (some (word.getD [])) r
    | .single => scan .plain word r
    | .double => scan mode (some (word.getD [] ++ ['\''])) r
  | c :: r =>
    if mode = .plain ∧ (c = ';' ∨ c = '\n') then flush word ++ .separator :: scan mode none r
    else if mode = .plain ∧ (c = ' ' ∨ c = '\t') then flush word ++ scan mode none r
    else scan mode (some (word.getD [] ++ [c])) r

/-- Cuts a script into commands. -/
def commands : List Token → List (List Token)
  | [] => [[]]
  | t :: r =>
    if t = .separator then [] :: commands r
    else match commands r with
      | [] => [[t]]
      | c :: cs => (t :: c) :: cs

/-- The words of a command. -/
def wordsOf (args : List String) (command : List Token) : List String :=
  command.flatMap fun
    | .word cs => [String.ofList cs]
    | .args => args
    | _ => []

/-- The number that a word is, modulo 256. -/
def exitCode (word : String) : Nat := (readNat? word.toList).getD 2 % 256

/-- Runs commands; `code` is the last exit code, and `said` what has been said. -/
def run (dir : String) (args : List String) (code : Nat) (said : String) :
    List (List Token) → Nat × String
  | [] => (code, said)
  | command :: r =>
    let say (text : String) : String :=
      if command.contains .toError then said ++ text ++ "\n" else said
    match wordsOf args command with
    | [] => run dir args code said r
    | ["exit"] => (code, said)
    | "exit" :: n :: _ => (exitCode n, said)
    | "echo" :: words => run dir args 0 (say (" ".intercalate words)) r
    | "pwd" :: _ => run dir args 0 (say dir) r
    | "true" :: _ => run dir args 0 said r
    | ":" :: _ => run dir args 0 said r
    | "false" :: _ => run dir args 1 said r
    | name :: _ => run dir args 127 (said ++ "sh: 1: " ++ name ++ ": not found\n") r

/-- Runs a script in a directory. -/
def script (dir : String) (text : String) (args : List String) : Outcome :=
  let (code, said) := run dir args 0 "" (commands (scan .plain none text.toList))
  .exited (some code) said

/-- Runs a command line whose program is known; `dir` is where programs run otherwise. -/
def execute (dir : String) (c : Command) : Outcome :=
  match c.program, c.args with
  | "true", _ => .exited (some 0) ""
  | "false", _ => .exited (some 1) ""
  | "echo", _ => .exited (some 0) ""
  | "sh", "-c" :: text :: rest => script (c.dir.getD dir) text rest.tail
  | "sh", _ => .exited (some 0) ""
  | _, _ => .notFound

end Shell
end Bindery
