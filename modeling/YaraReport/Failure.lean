/-
This file names everything that can go wrong around a run of one of the tools.
A failure is kept as its cause; its messages run from the outermost circumstance
to the innermost cause.
-/

import YaraReport.Child.Status
import YaraReport.SystemError
import YaraReport.Text.Duration
import YaraReport.Violation

namespace YaraReport

/-- Why a run of a tool, or what belongs to it, fails. -/
inductive Failure where
  | executableMissing (path : String) (error : SystemError)
  | executableNoFile (path : String)
  | executableNotRunnable (path : String)
  | variableUnusable (name : String) (cause : Failure)
  | notStarted (path : String) (error : SystemError)
  | outputUnreadable (program : String) (error : SystemError)
  | statusUnknown (error : SystemError)
  | timedOut (program : String) (limit : Nat)
  | deadlineUnreachable
  | endless (program : String)
  | calledOff (reason : String)
  | invalidOutput (lineNumber : Nat) (line : String) (violation : Violation)
  | scannerExited (status : ExitStatus) (complaint : String)
  | compilationFailed (errors : Nat) (status : ExitStatus)
  | noScannerRules
  | noCompilerRules
  | fileMissing (path : String)
  | targetUnusable (cause : Failure)
  | ruleFileMissing (path : String)
  | ruleTextEmpty
  | scratchRefused (purpose path : String) (error : SystemError)
  | scratchUnwritable (path : String) (error : SystemError)
  | poolRefused (error : SystemError)
  | notPersisted (destination : String) (error : SystemError)
  | unreadable (path : String) (error : SystemError)
  deriving DecidableEq, Repr

namespace Failure

/-- The circumstances and causes in words, the outermost first. -/
def messages : Failure → List String
  | .executableMissing path error => ["Executable not found: " ++ path, error.message]
  | .executableNoFile path => ["Not a file: " ++ path]
  | .executableNotRunnable path => ["File is not executable: " ++ path]
  | .variableUnusable name cause =>
    (name ++ " does not point at a usable executable") :: cause.messages
  | .notStarted path error => ["Failed to start " ++ path, error.message]
  | .outputUnreadable program error =>
    ["Failed to read output of " ++ program, error.message]
  | .statusUnknown error => [error.message]
  | .timedOut program limit =>
    [program ++ " did not finish within " ++ Text.duration limit]
  | .deadlineUnreachable => ["overflow when adding duration to instant"]
  | .endless program => [program ++ " does not finish"]
  | .calledOff reason => [reason]
  | .invalidOutput lineNumber _ violation =>
    ("invalid scanner output on line " ++ toString lineNumber ++ ": " ++ violation.message) ::
      violation.messages
  | .scannerExited status complaint =>
    ["Scanner exited with " ++ status.shown ++ ": " ++ complaint]
  | .compilationFailed errors status =>
    ["Compilation failed with " ++ toString errors ++ " error(s) (" ++ status.shown ++ ")"]
  | .noScannerRules => ["No rules were added to the scanner"]
  | .noCompilerRules => ["No rules were added to the compiler"]
  | .fileMissing path => ["File not found: " ++ path]
  | .targetUnusable cause => "Cannot open scan target" :: cause.messages
  | .ruleFileMissing path => ["Rule file not found: " ++ path]
  | .ruleTextEmpty => ["Rule content is empty"]
  | .scratchRefused purpose path error =>
    ["Failed to create " ++ purpose, error.messageAt path]
  | .scratchUnwritable path error => [error.messageAt path]
  -- The refusal is named by those who make the threads, and again as its own cause.
  | .poolRefused error => ["Failed to create thread pool", error.message, error.message]
  | .notPersisted destination error =>
    ["Failed to write compiled rules to " ++ destination, error.message]
  | .unreadable path error => ["Failed to read " ++ path, error.message]

def message (failure : Failure) : String := ": ".intercalate failure.messages

def headline (failure : Failure) : String := failure.messages.head?.getD ""

end Failure

end YaraReport
