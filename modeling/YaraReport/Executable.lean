/-
This file finds the executables of the tools and watches their runs. A path that
someone names must lead to a file that may be run; a bare name is looked up only
when the tool is started.
-/

import YaraReport.Failure
import YaraReport.Machine

namespace YaraReport

/-- An executable, known by its path or bare name. -/
structure Executable where
  path : String
  deriving DecidableEq, Repr

namespace Executable

/-- The executable at a path, which must be a file that may be run. -/
def at? (machine : Machine) (path : String) : Except Failure Executable :=
  match machine.find path with
  | .error error => .error (.executableMissing path error)
  | .ok (_, .directory) => .error (.executableNoFile path)
  | .ok (_, .file file) =>
    if file.runnable then .ok ⟨path⟩ else .error (.executableNotRunnable path)

/-- A tool and the environment variable that says where it is. -/
structure Tool where
  name : String
  override : String
  deriving DecidableEq, Repr

def Tool.scanner : Tool := ⟨"yara", "YARA_BINARY_PATH"⟩

def Tool.compiler : Tool := ⟨"yarac", "YARAC_BINARY_PATH"⟩

/-- The executable of a tool: the path that was asked for, else the one in the environment
variable unless that is empty, else the bare name. -/
def resolve (machine : Machine) (tool : Tool) (wanted : Option String) :
    Except Failure Executable :=
  match wanted with
  | some path => at? machine path
  | none =>
    match machine.environmentValue? tool.override with
    | none | some "" => .ok ⟨tool.name⟩
    | some path =>
      (at? machine path).mapError fun cause => .variableUnusable tool.override cause

def programName (executable : Executable) : String :=
  (Path.fileName? executable.path).getD executable.path

/-! ### Runs -/

structure Finished (State : Type) where
  state : State
  outcome : Except Failure ExitStatus
  /-- The start of the program, if it was started. -/
  launch : Option Launch
  machine : Machine

def verdict (executable : Executable) (limit : Option Nat) :
    Child.Outcome Failure → Except Failure ExitStatus
  | .exited status => .ok status
  | .timedOut => .error (.timedOut executable.programName (limit.getD 0))
  | .stopped cause => .error cause
  | .unreachable => .error .deadlineUnreachable
  | .endless => .error (.endless executable.programName)
  | .unreadable error => .error (.outputUnreadable executable.programName error)
  | .unanswered error => .error (.statusUnknown error)

/-- Runs an executable and hands its lines to a consumer. -/
def run {State : Type} (executable : Executable) (machine : Machine) (arguments : List String)
    (limit : Option Nat) (consumer : Child.Consumer State Failure) (state : State) :
    Finished State :=
  match machine.launch executable.path arguments with
  | .error error => ⟨state, .error (.notStarted executable.path error), none, machine⟩
  | .ok started =>
    let watched := Child.supervise consumer machine.clock limit state started.run
    ⟨watched.state, executable.verdict limit watched.outcome, some started.launch,
      started.machine⟩

end Executable

end YaraReport
