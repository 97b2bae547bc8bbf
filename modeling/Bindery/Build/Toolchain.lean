/-
# Toolchains

How a generated source becomes a library. Either `make` runs the compiler according to a generated
Makefile, which its users may edit, or the compiler is run directly. Flags come from the toolchain
and then from the set of headers.

A compiler that succeeds leaves a library at a known place; what it says then does not count. A
compiler that fails is reported with what it said, or with its exit code if it said nothing.
-/

import Bindery.Host.Path
import Bindery.Source.Symbols
import Bindery.Text.Digits

namespace Bindery

/-- A build that failed. -/
structure BuildError where
  target : String
  diagnostics : String
  deriving DecidableEq

/-- The wording of a build error. -/
def BuildError.message (e : BuildError) : String :=
  "build of `" ++ e.target ++ "` failed:\n" ++ e.diagnostics

/-- A compiler with its flags. -/
structure Toolchain where
  cxx : String := "c++"
  flags : List String := ["-O2", "-std=c++17"]
  deriving DecidableEq

/-- A toolchain with its flags in one text. -/
def Toolchain.withFlagText (cxx flags : String) : Toolchain := ⟨cxx, Text.wordsOf flags⟩

/-- One compilation inside a build directory. -/
structure Job where
  dir : String
  source : String
  artifact : String
  flags : List String
  deriving DecidableEq

/-- The name under which a job is reported. -/
def Job.target (job : Job) : String := (Path.fileName? job.artifact).getD job.artifact

/-- Where a job leaves its library. -/
def Job.output (job : Job) : String := Path.join job.dir job.artifact

/-- How the compiler is run. -/
inductive Driver where
  | make | direct
  deriving DecidableEq

/-- The Makefile of a build directory. -/
def makefile (tools : Toolchain) (flags : List String) : String :=
  "# Generated. Builds one binding artifact per invocation.\n" ++
    "CXX ?= " ++ tools.cxx ++ "\n" ++
    "CXXFLAGS = " ++ " ".intercalate (tools.flags ++ flags ++ ["-fPIC"]) ++ "\n" ++
    "\n" ++
    "$(TARGET): $(basename $(TARGET)).cpp " ++ Source.preludeFile ++ "\n" ++
    "\t$(CXX) $(CXXFLAGS) -shared -o $@ $<\n"

/-- What came of running a program. -/
inductive Outcome where
  | notFound
  /-- `none` stands for a program that did not exit by itself. -/
  | exited (code : Option Int) (said : String)
  deriving DecidableEq

/-- A command line, and the directory in which it is run if that matters. -/
structure Command where
  program : String
  args : List String
  dir : Option String
  deriving DecidableEq

/-- The command line for a job. -/
def Job.command (job : Job) (driver : Driver) (tools : Toolchain) (make : String) : Command :=
  match driver with
  | .make => ⟨make, ["-s", "-C", job.dir, "TARGET=" ++ job.target], none⟩
  | .direct =>
    ⟨tools.cxx, tools.flags ++ job.flags ++ ["-shared", "-fPIC", "-o", job.artifact, job.source],
      some job.dir⟩

/-- The result of a job, from what came of its command. -/
def Job.finish (job : Job) (program : String) : Outcome → Except BuildError String
  | .notFound => .error ⟨job.target, "`" ++ program ++ "` not found on PATH"⟩
  | .exited (some 0) _ => .ok job.output
  | .exited code said =>
    .error ⟨job.target,
      if (Text.trim said.toList).isEmpty then
        "`" ++ program ++ "` exited with code " ++ Text.intText (code.getD (-1))
      else said⟩

end Bindery
