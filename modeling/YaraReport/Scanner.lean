/-
This file drives the scanner. A scanner is an executable with rule files and
options; the arguments of a run follow from these, the module data and the
target. The lines of the run are read as they come, and every rule is delivered
as soon as it is complete.
-/

import YaraReport.Executable
import YaraReport.Scan.Reader

namespace YaraReport

/-! ### Module data -/

/-- Data for the modules of the scanner: names in increasing order with their values. -/
abbrev ModuleData := List (String × String)

namespace ModuleData

/-- The data with a value for a name, which replaces the one it may have had. -/
def put (name value : String) : ModuleData → ModuleData
  | [] => [(name, value)]
  | (other, own) :: rest =>
    if name < other then (name, value) :: (other, own) :: rest
    else if name = other then (name, value) :: rest
    else (other, own) :: put name value rest

/-- The data that pairs make up, a later pair counting more than an earlier one. -/
def ofPairs (pairs : List (String × String)) : ModuleData :=
  pairs.foldl (fun data pair => put pair.1 pair.2 data) []

def arguments (data : ModuleData) : List String :=
  data.flatMap fun pair => ["-x", pair.1 ++ "=" ++ pair.2]

/-- A name and a value with an equals sign between them, neither being empty. -/
def ofArgument? (text : String) : Option (String × String) :=
  match Text.cutAt '=' text.toList with
  | (name :: _, _) =>
    let value := text.toList.drop (name.length + 1)
    if name.isEmpty || value.isEmpty then none
    else some (String.ofList name, String.ofList value)
  | ([], _) => none

end ModuleData

/-! ### Scanners -/

/-- A scanner with its rules and options. -/
structure Scanner where
  executable : Executable
  /-- The absolute paths of the rule files, in order. -/
  rules : List String
  compiled : Bool
  negate : Bool
  maxRules : Option Nat
  /-- The time limit in nanoseconds. -/
  limit : Nat
  deriving DecidableEq, Repr

def compiledExtension : String := "yaracc"

def defaultLimit : Nat := 60 * Text.second

/-- The absolute spelling of a path that names something. -/
def existing (machine : Machine) (path : String) : Except Failure String :=
  if machine.exists? path then .ok (machine.absolute path) else .error (.fileMissing path)

/-- A new temporary file that serves a purpose and holds some bytes. -/
def scratchHolding (machine : Machine) (purpose extension : String) (content : List UInt8) :
    Except Failure (Machine.Scratch × Machine) :=
  match machine.makeScratch extension with
  | .error refusal => .error (.scratchRefused purpose refusal.path refusal.error)
  | .ok (scratch, extended) =>
    match extended.fillScratch scratch content with
    | .error error => .error (.scratchUnwritable scratch.path error)
    | .ok filled => .ok (scratch, filled)

/-- A list of paths with one more, unless it holds that path already. -/
def addPath (paths : List String) (path : String) : List String :=
  if paths.any (Path.same path) then paths else paths ++ [path]

namespace Scanner

def ofExecutable (executable : Executable) : Scanner :=
  ⟨executable, [], false, false, none, defaultLimit⟩

def addRule (machine : Machine) (path : String) (scanner : Scanner) : Except Failure Scanner :=
  (existing machine path).map fun path => { scanner with rules := addPath scanner.rules path }

def useCompiled (machine : Machine) (path : String) (scanner : Scanner) :
    Except Failure Scanner :=
  (existing machine path).map fun path => { scanner with rules := [path], compiled := true }

/-- Whether the rules are compiled ones: they were asked for as such, or are one file with the
extension of compiled rules. -/
def usesCompiled (scanner : Scanner) : Bool :=
  scanner.compiled ||
    match scanner.rules with
    | [only] => Path.extension? only = some compiledExtension
    | _ => false

def arguments (scanner : Scanner) (target : String) (modules : ModuleData) : List String :=
  ["-g", "-m", "-s"] ++ (if scanner.negate then ["-n"] else []) ++
    (match scanner.maxRules with
      | some count => ["-l", toString count]
      | none => []) ++
    modules.arguments ++ (if scanner.usesCompiled then ["-C"] else []) ++
    scanner.rules ++ [target]

/-! ### Scans -/

structure Progress where
  reader : Reader
  /-- The rules delivered so far, the latest first. -/
  delivered : List Rule
  /-- The lines of the error stream so far, the latest first. -/
  warnings : List String

/-- Reads the lines of a scan. A line that breaks the format calls the run off. -/
def consumer : Child.Consumer Progress Failure where
  onOutput progress line :=
    let step := progress.reader.feed line
    ({ progress with
        reader := step.reader, delivered := step.delivered.reverse ++ progress.delivered },
      step.violation.map fun violation =>
        .invalidOutput step.reader.lineNumber line violation)
  onError progress line := { progress with warnings := line :: progress.warnings }

/-- What a successful scan leaves behind besides its rules. -/
structure Summary where
  rules : Nat
  skipped : Nat
  warnings : List String
  deriving DecidableEq, Repr

structure Finished where
  outcome : Except Failure Summary
  /-- The rules delivered, in order. -/
  delivered : List Rule
  /-- The start of the scanner, if it was started. -/
  launch : Option Launch
  machine : Machine

def refused (machine : Machine) (failure : Failure) : Finished :=
  ⟨.error failure, [], none, machine⟩

/-- The lines of the error stream as the complaint of a scanner that failed. -/
def complaint (warnings : List String) : String :=
  Text.trimmed ("\n".intercalate warnings)

/-- What a scan comes to, given how the run of the scanner ended. -/
def conclude (finished : Executable.Finished Progress) : Finished :=
  let delivered := finished.state.delivered.reverse
  let warnings := finished.state.warnings.reverse
  match finished.outcome with
  | .error failure => ⟨.error failure, delivered, finished.launch, finished.machine⟩
  | .ok status =>
    if status.isSuccess then
      let rules := delivered ++ finished.state.reader.progress.pending
      ⟨.ok ⟨rules.length, finished.state.reader.skipped, warnings⟩, rules, finished.launch,
        finished.machine⟩
    else
      ⟨.error (.scannerExited status (complaint warnings)), delivered, finished.launch,
        finished.machine⟩

def scanFile (scanner : Scanner) (machine : Machine) (target : String) (modules : ModuleData) :
    Finished :=
  if scanner.rules.isEmpty then refused machine .noScannerRules
  else
    match existing machine target with
    | .error failure => refused machine (.targetUnusable failure)
    | .ok target =>
      conclude (scanner.executable.run machine (scanner.arguments target modules)
        (some scanner.limit) consumer ⟨Reader.start, [], []⟩)

/-- The file extension of data that is scanned through a temporary file. -/
def dataExtension : String := ".dat"

/-- Scans data through a temporary file, which is gone afterwards. -/
def scanBytes (scanner : Scanner) (machine : Machine) (content : List UInt8)
    (modules : ModuleData) : Finished :=
  match scratchHolding machine "temporary scan target" dataExtension content with
  | .error failure => refused machine failure
  | .ok (scratch, extended) =>
    let finished := scanner.scanFile extended scratch.path modules
    { finished with machine := finished.machine.dropScratch scratch }

end Scanner

end YaraReport
