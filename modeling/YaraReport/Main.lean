/-
This file is the command line program. It surveys the files that the arguments,
the environment and the search for settings can lead to, runs the session on what
it found, and prints the result. It starts no programs: to a scan or a
compilation the surveyed machine offers none.
-/

import YaraReport.Session

namespace YaraReport.Survey

/-- Adds what stands at a place of the real file system. -/
def addPlace (tree : FileTree) (place : Place) : IO FileTree := do
  let path := (← IO.currentDir) / Place.path place
  try
    let status ← path.metadata
    match status.type with
    | .dir => return tree.set place .directory
    | .file =>
      let content ← IO.FS.readBinFile path
      return tree.set place (.file ⟨content.toList, false⟩)
    | _ => return tree
  catch _ => return tree

def addWay (tree : FileTree) (place : Place) : List String → IO FileTree
  | [] => return tree
  | segment :: rest => do
    let next := FileTree.step place segment
    addWay (← addPlace tree next) next rest

def addPath (tree : FileTree) (directory : Place) (path : String) : IO FileTree :=
  addWay tree (FileTree.origin directory path) (Path.segments path)

/-- The settings files that may count, at or above a directory, which is given by its names
from the last to the first. -/
def settingsPaths : List String → List String
  | [] => [Path.join "/" Settings.fileName]
  | name :: above =>
    Path.join (Place.path (name :: above).reverse) Settings.fileName :: settingsPaths above

def variableNames : List String :=
  ["HOME", "PATH", "CLICOLOR", "CLICOLOR_FORCE", "NO_COLOR", Executable.Tool.scanner.override,
    Executable.Tool.compiler.override]

def environment : IO (List (String × String)) :=
  variableNames.filterMapM fun name => do
    return (← IO.getEnv name).map fun value => (name, value)

def machine (arguments : List String) : IO Machine := do
  let working ← IO.currentDir
  let directory := (Path.plainNames working.toString).filter (· ≠ "")
  let known ← environment
  let home := ((known.lookup "HOME").map fun home => Path.join home Settings.fileName).toList
  let paths := arguments ++ settingsPaths directory.reverse ++ home
  let start ← addPath .empty [] working.toString
  let files ← paths.foldlM (fun tree path => addPath tree directory path) start
  return {
    files := files
    directory := directory
    environment := known
    clock := (← IO.monoNanosNow)
    programs := fun _ => none
    refusals := .none
    scratchNames := toString
    scratchCount := 0
    alarm := fun message => [message] }

def standardInput (arguments : List String) : IO (List UInt8) := do
  match CommandLine.read arguments with
  | .error _ => return []
  | .ok invocation =>
    if Session.readsStandardInput invocation.command then
      return (← (← IO.getStdin).readBinToEnd).toList
    else return []

end YaraReport.Survey

/-- Runs the program on the real arguments, environment and standard input. -/
def main (arguments : List String) : IO UInt32 := do
  let output ← IO.getStdout
  let machine ← YaraReport.Survey.machine arguments
  let stdin ← YaraReport.Survey.standardInput arguments
  let result :=
    YaraReport.Session.run .standard machine (← output.isTty) arguments stdin
  output.putStr (YaraReport.Session.text result.printed.output)
  (← IO.getStderr).putStr (YaraReport.Session.text result.printed.error)
  return UInt32.ofNat result.exit.code
