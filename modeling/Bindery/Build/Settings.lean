/-
# Settings

Where bindings are kept and how they are compiled, as set in the environment:

| variable | sets |
| --- | --- |
| `LAZYBIND_OUTPUT_DIR` | the output directory |
| `LAZYBIND_CXX` | the compiler |
| `LAZYBIND_CXXFLAGS` | its flags, separated by blanks |
| `LAZYBIND_DRIVER` | `make` or `direct`, in any case |
-/

import Bindery.Build.Toolchain

namespace Bindery

/-- Where bindings are kept and how they are compiled. -/
structure Settings where
  outputDir : String := "."
  tools : Toolchain := {}
  driver : Driver := .make
  deriving DecidableEq

namespace Settings

/-- The driver of a name. -/
def driver? (name : String) : Option Driver :=
  match name with
  | "make" => some .make
  | "direct" => some .direct
  | _ => none

/-- A name without blanks around it, in lower case. -/
def fold (name : String) : String := String.ofList ((Text.trim name.toList).map Char.toLower)

/-- The complaint about a driver that is none. -/
def unknownDriver (name : String) : String :=
  "LAZYBIND_DRIVER: unknown driver `" ++ name ++ "` (expected `make` or `direct`)"

/-- The variables that set something. -/
def variableNames : List String :=
  ["LAZYBIND_OUTPUT_DIR", "LAZYBIND_CXX", "LAZYBIND_CXXFLAGS", "LAZYBIND_DRIVER"]

/-- The settings of an environment. -/
def ofEnvironment (get? : String → Option String) : Except String Settings :=
  let cxx := (get? "LAZYBIND_CXX").getD ({} : Toolchain).cxx
  let tools := match get? "LAZYBIND_CXXFLAGS" with
    | some flags => .withFlagText cxx flags
    | none => { cxx }
  let outputDir := (get? "LAZYBIND_OUTPUT_DIR").getD "."
  match get? "LAZYBIND_DRIVER" with
  | none => .ok { outputDir, tools }
  | some name =>
    match driver? (fold name) with
    | some driver => .ok { outputDir, tools, driver }
    | none => .error (unknownDriver (fold name))

end Settings
end Bindery
