/-
This file says what the command line can ask for and how the arguments are
understood. There are four commands, each with switches of its own; the switches
for styles and logs are understood before and after the name of the command.
-/

import YaraReport.CommandLine.Switch
import YaraReport.Scanner

namespace YaraReport

structure ScanRequest where
  targets : List String
  rules : List String
  compiled : Option String
  /-- The data for the scanner's modules, in the order given. -/
  modules : List (String × String)
  negate : Bool
  maxRules : Option Nat
  seconds : Option Nat
  json : Bool
  scanner : Option String
  deriving DecidableEq, Repr

/-- What a compilation is asked to do. -/
structure CompileRequest where
  rules : List String
  output : String
  seconds : Option Nat
  json : Bool
  compiler : Option String
  deriving DecidableEq, Repr

/-- What the reading of a saved capture is asked to do. -/
structure CaptureRequest where
  /-- The file; the standard input when there is none. -/
  file : Option String
  json : Bool
  deriving DecidableEq, Repr

inductive Command where
  | scan (request : ScanRequest)
  | compile (request : CompileRequest)
  | readOutput (request : CaptureRequest)
  | readDiagnostics (request : CaptureRequest)
  deriving DecidableEq, Repr

/-- A command with the switches that every command has. -/
structure Invocation where
  command : Command
  noColor : Bool
  deriving DecidableEq, Repr

namespace CommandLine

/-! ### Values -/

def isPath (value : String) : Bool := value ≠ ""

/-- The number that a value denotes, when it is below a bound. -/
def bounded? (bound : Nat) (value : Option Nat) : Option Nat := value.filter (· < bound)

def seconds? (value : String) : Option Nat :=
  bounded? UInt64.size (Text.plusDecimal? value.toList)

/-- The number of rules that a value denotes. A minus sign is read, but only zero may bear it. -/
def count? (value : String) : Option Nat :=
  match value.toList with
  | '-' :: digits => bounded? 1 (Text.decimal? digits)
  | digits => bounded? UInt32.size (Text.plusDecimal? digits)

/-! ### Switches -/

def flag (long : String) (letter : Option Char) : Switch := ⟨long, letter, none, false⟩

def option (long : String) (letter : Option Char) (accepts : String → Bool) : Switch :=
  ⟨long, letter, some accepts, false⟩

/-- A switch with a value that may be given several times. -/
def repeated (long : String) (letter : Option Char) (accepts : String → Bool) : Switch :=
  ⟨long, letter, some accepts, true⟩

def commonSwitches : List Switch := [flag "verbose" (some 'v'), flag "no-color" none]

def jsonSwitch : Switch := flag "json" none

def timeoutSwitch : Switch := option "timeout" none fun value => (seconds? value).isSome

def topVocabulary : Vocabulary := ⟨.program, commonSwitches, fun _ => false, none, true⟩

def scanVocabulary : Vocabulary where
  topic := .scan
  switches :=
    [repeated "rules" (some 'r') isPath, option "compiled" (some 'C') isPath,
      repeated "module-data" (some 'x') fun value => (ModuleData.ofArgument? value).isSome,
      flag "negate" (some 'n'),
      option "max-rules" (some 'l') fun value => (count? value).isSome,
      timeoutSwitch, jsonSwitch, option "yara" none isPath] ++ commonSwitches
  operand := isPath
  maxOperands := none
  versioned := false

def compileVocabulary : Vocabulary where
  topic := .compile
  switches :=
    [option "output" (some 'o') isPath, timeoutSwitch, jsonSwitch,
      option "yarac" none isPath] ++ commonSwitches
  operand := fun _ => true
  maxOperands := none
  versioned := false

/-- What is understood after a command that reads a capture. -/
def captureVocabulary (topic : Topic) : Vocabulary where
  topic := topic
  switches := jsonSwitch :: commonSwitches
  operand := isPath
  maxOperands := some 1
  versioned := false

/-! ### Commands -/

/-- The scan that is asked for. It needs a target, and rules of one kind only. -/
def scanRequest (given : Given) : Except Stop Command :=
  if given.operands.isEmpty || (given.has "compiled" && given.has "rules") then .error .refused
  else
    .ok (.scan {
      targets := given.operands
      rules := given.values "rules"
      compiled := given.value? "compiled"
      modules := (given.values "module-data").filterMap ModuleData.ofArgument?
      negate := given.has "negate"
      maxRules := (given.value? "max-rules").bind count?
      seconds := (given.value? "timeout").bind seconds?
      json := given.has "json"
      scanner := given.value? "yara" })

/-- The compilation that is asked for. It needs a rule file and a place for the result. -/
def compileRequest (given : Given) : Except Stop Command :=
  match given.value? "output" with
  | none => .error .refused
  | some output =>
    if given.operands.isEmpty then .error .refused
    else
      .ok (.compile {
        rules := given.operands
        output := output
        seconds := (given.value? "timeout").bind seconds?
        json := given.has "json"
        compiler := given.value? "yarac" })

def captureRequest (given : Given) : CaptureRequest := ⟨given.operands.head?, given.has "json"⟩

/-- What is understood after the name of a command and what that asks for. -/
structure Entry where
  vocabulary : Vocabulary
  request : Given → Except Stop Command

def Entry.name (entry : Entry) : String := entry.vocabulary.topic.name

def entries : List Entry :=
  [⟨scanVocabulary, scanRequest⟩, ⟨compileVocabulary, compileRequest⟩,
    ⟨captureVocabulary .readOutput, fun given => .ok (.readOutput (captureRequest given))⟩,
    ⟨captureVocabulary .readDiagnostics,
      fun given => .ok (.readDiagnostics (captureRequest given))⟩]

def explain : List String → Stop
  | [] => .help .program
  | [name] =>
    match Topic.commands.find? fun topic => topic.name = name with
    | some topic => .help topic
    | none => .refused
  | _ => .refused

def readCommand (before : Given) (entry : Entry) (arguments : List String) :
    Except Stop Invocation :=
  match entry.vocabulary.read .nothing none arguments with
  | .error stop => .error stop
  | .ok given =>
    (entry.request given).map fun command =>
      ⟨command, before.has "no-color" || given.has "no-color"⟩

/-- Reads the arguments up to the name of a command, and those after it. -/
def readFrom (given : Given) : List String → Except Stop Invocation
  | [] => .error .refused
  | argument :: rest =>
    if argument = Topic.help.name then .error (explain rest)
    else
      match entries.find? fun entry => entry.name = argument with
      | some entry => readCommand given entry rest
      | none =>
        if Vocabulary.looksLikeSwitch argument && argument ≠ "--" then
          match topVocabulary.readSwitch given argument with
          | .error stop => .error stop
          | .ok (given, _) => readFrom given rest
        else .error .refused

def read (arguments : List String) : Except Stop Invocation := readFrom .nothing arguments

end CommandLine

end YaraReport
