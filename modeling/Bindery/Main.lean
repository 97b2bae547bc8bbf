/-
# The tool

Reads what the command line may look at, runs the tool, and writes what has changed. Only programs
that are known by what they do can be run, and no library can be loaded.
-/

import Bindery.Build.Shell
import Bindery.CommandLine.Run

namespace Bindery
namespace Tool

open CommandLine

/-- The files at a path and beneath it. -/
partial def readTree (files : Files Empty) (path : String) : IO (Files Empty) := do
  let place := (← IO.currentDir) / path
  if ← place.isDir then
    let mut files := { files with bare := path :: files.bare }
    for e in ← place.readDir do
      files ← readTree files (Path.join path e.fileName)
    return files
  else if ← place.pathExists then
    return files.put path (.bytes (← IO.FS.readBinFile place).toList)
  else return files

/-- The variables that are set. -/
def readVariables : IO EnvFile.Variables := do
  let found ← Settings.variableNames.mapM fun name => return (← IO.getEnv name).map fun v => (name, v)
  return found.filterMap id

/-- Writes the files that are not as before. -/
def writeChanged (before after : Files Empty) : IO Unit := do
  for (path, file) in after.entries do
    match file with
    | .library lib => nomatch lib
    | .bytes content =>
      if before.read? path ≠ some content then
        let place := (← IO.currentDir) / path
        IO.FS.createDirAll (place.parent.getD place)
        IO.FS.writeBinFile place ⟨content.toArray⟩

/-- Runs the tool with the words of a command line. -/
def runWith (words : List String) : IO Output := do
  let dir := (← IO.currentDir).toString
  let host : Host Unit Empty := {
    dir
    env := ← readVariables
    libraries := .bare Unit
    execute := fun c => return Shell.execute dir c }
  let files ← readTree { bare := [dir] } (host.place Host.environmentFile)
  let files ← (host.sources files words).foldlM readTree files
  let (output, world) := (host.run words).run ⟨files, (), 0⟩
  writeChanged files world.files
  return output

end Tool
end Bindery

/-- Runs the tool, prints what it prints, and ends with its code. -/
def main (words : List String) : IO UInt32 := do
  let output ← Bindery.Tool.runWith words
  IO.print output.out
  IO.eprint output.err
  return UInt32.ofNat output.code
