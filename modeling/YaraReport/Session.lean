/-
This file runs the commands: it turns the surroundings, the arguments and the
standard input into what is printed, an exit code, and the surroundings after.
The targets of one scan are scanned side by side and reported in order; a target
that fails contributes a report on its failure and nothing else.

How arguments and settings files are written is no matter of the commands, so those
who read them are given (`Readers`).
-/

import YaraReport.CommandLine
import YaraReport.Compiler
import YaraReport.Diagnostic.Json
import YaraReport.Display
import YaraReport.Report
import YaraReport.Rule.Json
import YaraReport.Settings

namespace YaraReport.Session

/-! ### What a command prints -/

structure Printed where
  output : List String
  error : List String
  deriving DecidableEq, Repr

def Printed.nothing : Printed := ⟨[], []⟩

def Printed.ofOutput (rows : List String) : Printed := ⟨rows, []⟩

def Printed.ofError (rows : List String) : Printed := ⟨[], rows⟩

def Printed.append (first second : Printed) : Printed :=
  ⟨first.output ++ second.output, first.error ++ second.error⟩

instance : Append Printed := ⟨Printed.append⟩

def text (rows : List String) : String := String.join (rows.map fun row => row ++ "\n")

inductive Exit where
  | success
  | failure
  | misuse
  | abort
  deriving DecidableEq, Repr

def Exit.code : Exit → Nat
  | .success => 0
  | .failure => 1
  | .misuse => 2
  | .abort => 101

def Exit.ofSuccess (success : Bool) : Exit := if success then .success else .failure

/-- What running the program comes to. -/
structure Result where
  exit : Exit
  printed : Printed
  machine : Machine
  /-- The programs it started, in order. -/
  launches : List Launch

/-! ### Styles and reports -/

/-- Whether the environment asks for styles. Being forced counts more than being forbidden, and
that more than the terminal. -/
def environmentStyled (machine : Machine) (terminal : Bool) : Bool :=
  if (machine.environmentValue? "CLICOLOR_FORCE").any (· ≠ "0") then true
  else if (machine.environmentValue? "NO_COLOR").isSome then false
  else terminal && (machine.environmentValue? "CLICOLOR").all (· ≠ "0")

structure Context where
  settings : Settings
  styled : Bool

def warningSign (styled : Bool) : String := (Style.strong .yellow).paint styled "⚠"

def successSign (styled : Bool) : String := (Style.strong .green).paint styled "✓"

def reportFailure (styled : Bool) (failure : Failure) (file : Option String) : Printed :=
  .ofError ((Report.ofFailure failure file).rows styled)

def fail (context : Context) (machine : Machine) (launches : List Launch) (failure : Failure) :
    Result :=
  if failure = .deadlineUnreachable then
    ⟨.abort, .ofError (machine.alarm failure.message), machine, launches⟩
  else ⟨.failure, reportFailure context.styled failure none, machine, launches⟩

/-! ### Scanning -/

def addRules (machine : Machine) (scanner : Scanner) : List String → Except Failure Scanner
  | [] => .ok scanner
  | path :: rest =>
    match scanner.addRule machine path with
    | .error failure => .error failure
    | .ok scanner => addRules machine scanner rest

def scannerFor (settings : Settings) (machine : Machine) (request : ScanRequest) :
    Except Failure Scanner :=
  match Executable.resolve machine .scanner (request.scanner <|> settings.scanner) with
  | .error failure => .error failure
  | .ok executable =>
    let scanner : Scanner :=
      { Scanner.ofExecutable executable with
        negate := request.negate, maxRules := request.maxRules, limit := settings.limit }
    match request.compiled with
    | none => addRules machine scanner request.rules
    | some path =>
      match scanner.useCompiled machine path with
      | .error failure => .error failure
      | .ok scanner => addRules machine scanner request.rules

structure Scanned where
  target : String
  finished : Scanner.Finished

def Scanned.report? (scanned : Scanned) : Option TargetReport :=
  match scanned.finished.outcome with
  | .ok summary =>
    some ⟨scanned.target, scanned.finished.delivered, summary.skipped, summary.warnings⟩
  | .error _ => none

def Scanned.failure? (scanned : Scanned) : Option Failure :=
  match scanned.finished.outcome with
  | .ok _ => none
  | .error failure => some failure

/-- Scans targets side by side: every scan finds the surroundings as they were. -/
def scanAll (scanner : Scanner) (modules : ModuleData) (machine : Machine)
    (targets : List String) : List Scanned :=
  targets.map fun target => ⟨target, scanner.scanFile machine target modules⟩

def afterScans (scanner : Scanner) (modules : ModuleData) (machine : Machine)
    (targets : List String) : Machine :=
  targets.foldl (fun machine target => (scanner.scanFile machine target modules).machine) machine

def skippedWarning (styled : Bool) (subject : String) (skipped : Nat) : List String :=
  if skipped = 0 then []
  else
    [warningSign styled ++ " " ++ subject ++ "skipped " ++ toString skipped ++
      " malformed entries"]

def printTarget (styled : Bool) (report : TargetReport) : Printed :=
  ⟨report.rules.flatMap (Rule.reportLines styled (some report.target)),
    skippedWarning styled (report.target ++ ": ") report.skipped⟩

/-- Prints what the scan of one target came to; a report is left for later in JSON. -/
def printScanned (context : Context) (scanned : Scanned) : Printed :=
  match scanned.failure?, scanned.report? with
  | some failure, _ => reportFailure context.styled failure (some scanned.target)
  | none, some report =>
    if context.settings.json then .nothing else printTarget context.styled report
  | none, none => .nothing

/-- Prints the reports on all targets in JSON, where that is asked for. -/
def printReports (context : Context) (scans : List Scanned) : Printed :=
  if context.settings.json then
    .ofOutput [(Json.list ((scans.filterMap Scanned.report?).map TargetReport.json)).indented]
  else .nothing

/-- What scans come to, given the surroundings after them. -/
def concludeScans (context : Context) (after : Machine) (scans : List Scanned) : Result :=
  let launches := scans.filterMap fun scanned => scanned.finished.launch
  if scans.any fun scanned => scanned.failure? = some .deadlineUnreachable then
    fail context after launches .deadlineUnreachable
  else
    ⟨.ofSuccess (scans.all fun scanned => scanned.failure?.isNone),
      (scans.map (printScanned context)).foldr (· ++ ·) (printReports context scans),
      after, launches⟩

def scan (context : Context) (machine : Machine) (request : ScanRequest) : Result :=
  let settings := context.settings.withFlags request.seconds request.json false
  let context := { context with settings }
  match scannerFor settings machine request with
  | .error failure => fail context machine [] failure
  | .ok scanner =>
    match machine.poolRefusal? settings.threads with
    | some error => fail context machine [] (.poolRefused error)
    | none =>
      let modules := ModuleData.ofPairs request.modules
      concludeScans context (afterScans scanner modules machine request.targets)
        (scanAll scanner modules machine request.targets)

/-! ### Compiling -/

/-- Adds files, each perhaps with its namespace, to a compiler in order. -/
def addSpecs (machine : Machine) (compiler : Compiler) : List String → Except Failure Compiler
  | [] => .ok compiler
  | text :: rest =>
    let spec := Compiler.splitArgument text
    match compiler.addRule machine spec.1 spec.2 with
    | .error failure => .error failure
    | .ok compiler => addSpecs machine compiler rest

def compilerFor (settings : Settings) (machine : Machine) (request : CompileRequest) :
    Except Failure Compiler :=
  match Executable.resolve machine .compiler (request.compiler <|> settings.compiler) with
  | .error failure => .error failure
  | .ok executable =>
    addSpecs machine { Compiler.ofExecutable executable with limit := settings.limit }
      request.rules

def diagnosticsJson (diagnostics : List Diagnostic) : String :=
  (Json.list (diagnostics.map Diagnostic.json)).indented

def printDiagnostics (context : Context) (diagnostics : List Diagnostic) : Printed :=
  if context.settings.json then .ofOutput [diagnosticsJson diagnostics]
  else .ofError (diagnostics.map (Diagnostic.report context.styled))

def printWritten (context : Context) (destination : String) : Printed :=
  if context.settings.json then .nothing
  else .ofOutput [successSign context.styled ++ " Compiled rules written to " ++ destination]

def Result.after (printed : Printed) (result : Result) : Result :=
  { result with printed := printed ++ result.printed }

def concludeCompilation (context : Context) (destination : String)
    (finished : Compiler.Finished) : Result :=
  let launches := finished.launch.toList
  match finished.outcome with
  | .error .deadlineUnreachable =>
    fail context finished.machine launches .deadlineUnreachable
  | .error failure =>
    (fail context finished.machine launches failure).after
      (printDiagnostics context finished.delivered)
  | .ok compiled =>
    (match compiled.persist finished.machine destination with
      | (.error failure, machine) => fail context machine launches failure
      | (.ok (), machine) =>
        ⟨.success, printWritten context destination, machine, launches⟩).after
      (printDiagnostics context finished.delivered)

def compile (context : Context) (machine : Machine) (request : CompileRequest) : Result :=
  let settings := context.settings.withFlags request.seconds request.json false
  let context := { context with settings }
  match compilerFor settings machine request with
  | .error failure => fail context machine [] failure
  | .ok compiler =>
    concludeCompilation context request.output (compiler.compile machine)

/-! ### Reading captures -/

structure Input where
  name : String
  text : String

/-- The path of the file that a capture is read from. A single dash, or no path, names the
standard input. -/
def inputFile? (request : CaptureRequest) : Option String :=
  request.file.filter fun path => !Path.same path "-"

def readInput (machine : Machine) (stdin : List UInt8) (request : CaptureRequest) :
    Except Failure Input :=
  match inputFile? request with
  | none => .ok ⟨"<stdin>", Text.Utf8.toStringLossy stdin⟩
  | some path =>
    match machine.read path with
    | .error error => .error (.unreadable path error)
    | .ok bytes => .ok ⟨path, Text.Utf8.toStringLossy bytes⟩

def printCapture (context : Context) (json : Bool) (capture : Capture) : Printed :=
  if json then .ofOutput [(Json.list (capture.rules.map Rule.json)).indented]
  else
    ⟨capture.rules.flatMap (Rule.reportLines context.styled none),
      skippedWarning context.styled "" capture.skipped⟩

def readOutput (context : Context) (machine : Machine) (stdin : List UInt8)
    (request : CaptureRequest) : Result :=
  match readInput machine stdin request with
  | .error failure => fail context machine [] failure
  | .ok input =>
    match Capture.ofText input.text with
    | .error violation =>
      ⟨.failure,
        .ofError ((Report.ofViolation violation (some input.name) input.text 1).rows
          context.styled),
        machine, []⟩
    | .ok capture =>
      ⟨.success, printCapture context (request.json || context.settings.json) capture,
        machine, []⟩

def tallyRow (tally : Diagnostic.Tally) : String :=
  toString tally.errors ++ " error(s), " ++ toString tally.warnings ++ " warning(s)"

def readDiagnostics (context : Context) (machine : Machine) (stdin : List UInt8)
    (request : CaptureRequest) : Result :=
  match readInput machine stdin request with
  | .error failure => fail context machine [] failure
  | .ok input =>
    let read := Diagnostic.Tally.zero.feedAll (Text.lines input.text)
    let rows :=
      if request.json || context.settings.json then [diagnosticsJson read.2]
      else read.2.map (Diagnostic.report context.styled) ++ ["", tallyRow read.1]
    ⟨.ofSuccess (read.1.errors = 0), .ofOutput rows, machine, []⟩

/-! ### The whole program -/

/-- Those who read the arguments and the settings files. -/
structure Readers where
  arguments : List String → Except CommandLine.Stop Invocation
  settings : Toml.Reader

def Readers.standard : Readers := ⟨CommandLine.read, Toml.reader⟩

def versionRow : String := "yarapipe 0.0.1"

/-- The end of a program whose arguments ask for no command. -/
def stopped (machine : Machine) : CommandLine.Stop → Result
  | .refused => ⟨.misuse, .ofError CommandLine.programPage.rows, machine, []⟩
  | .help topic => ⟨.success, .ofOutput topic.page.rows, machine, []⟩
  | .version => ⟨.success, .ofOutput [versionRow], machine, []⟩

/-- The settings files' settings, or the defaults and a warning when one file is of no use. -/
def loadSettings (reader : Toml.Reader) (machine : Machine) (styled : Bool) :
    Settings × Printed :=
  match Settings.load reader machine with
  | .ok settings => (settings, .nothing)
  | .error failure =>
    (.defaults, .ofError [warningSign styled ++ " Failed to load config: " ++ failure.message])

def runCommand (context : Context) (machine : Machine) (stdin : List UInt8) :
    Command → Result
  | .scan request => scan context machine request
  | .compile request => compile context machine request
  | .readOutput request => readOutput context machine stdin request
  | .readDiagnostics request => readDiagnostics context machine stdin request

def readsStandardInput : Command → Bool
  | .scan _ | .compile _ => false
  | .readOutput request | .readDiagnostics request => (inputFile? request).isNone

def run (readers : Readers) (machine : Machine) (terminal : Bool) (arguments : List String)
    (stdin : List UInt8) : Result :=
  match readers.arguments arguments with
  | .error stop => stopped machine stop
  | .ok invocation =>
    let styled := environmentStyled machine terminal
    let loaded := loadSettings readers.settings machine styled
    let settings := loaded.1.withFlags none false invocation.noColor
    (runCommand ⟨settings, styled && settings.colored⟩ machine stdin invocation.command).after
      loaded.2

end YaraReport.Session
