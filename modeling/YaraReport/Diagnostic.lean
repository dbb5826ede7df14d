/-
This file defines what the compiler reports: a diagnostic with the place it
stands at, how much it matters, and a message.
-/

namespace YaraReport

inductive Severity where
  | error
  | warning
  | unknown
  deriving DecidableEq, Repr

def Severity.shown : Severity → String
  | .error => "error"
  | .warning => "warning"
  | .unknown => "unknown"

structure Diagnostic where
  fileName : Option String
  line : Option UInt32
  severity : Severity
  message : String
  deriving DecidableEq, Repr

namespace Diagnostic

def lineText (line : UInt32) : String := toString line.toNat

def place (diagnostic : Diagnostic) : String :=
  match diagnostic.fileName, diagnostic.line with
  | some file, some line => file ++ "(" ++ lineText line ++ "): "
  | some file, none => file ++ ": "
  | none, _ => ""

def shown (diagnostic : Diagnostic) : String :=
  diagnostic.place ++ diagnostic.severity.shown ++ ": " ++ diagnostic.message

end Diagnostic

end YaraReport
