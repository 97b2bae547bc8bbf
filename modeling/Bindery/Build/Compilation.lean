/-
# Compilations

How a toolchain makes a build directory ready and compiles in it. With `make` the directory gets a
Makefile for its flags. Running a program is left open: `run` says what comes of a command line.
-/

import Bindery.Native.Platform

namespace Bindery
namespace Toolchain

variable {σ L : Type}

/-- The file that holds the build rules of a directory. -/
def rulesFile : String := "Makefile"

/-- The program that reads build rules. -/
def make : String := "make"

/-- Makes a build directory ready. -/
def prepare (tools : Toolchain) (driver : Driver) (dir : String) (flags : List String) :
    StateM (World σ L) (Except BuildError Unit) := fun w =>
  match driver with
  | .direct => (.ok (), w)
  | .make =>
    match w.files.write (Path.join dir rulesFile) (Text.encode (makefile tools flags)) with
    | .ok files => (.ok (), { w with files })
    | .error e => (.error ⟨rulesFile, e.message⟩, w)

/-- Compiles. -/
def compile (tools : Toolchain) (driver : Driver)
    (run : Command → StateM (World σ L) Outcome) (job : Job) : StateM (World σ L) Compiled := do
  let command := job.command driver tools make
  return ⟨job.finish command.program (← run command), 0⟩

/-- A platform that compiles with a toolchain and is otherwise as given. -/
def platform (tools : Toolchain) (driver : Driver)
    (run : Command → StateM (World σ L) Outcome) (p : Platform σ L) : Platform σ L :=
  { p with prepare := tools.prepare driver, compile := tools.compile driver run }

end Toolchain
end Bindery
