/-
This file says how diagnostics are written as JSON.
-/

import YaraReport.Diagnostic
import YaraReport.Json

namespace YaraReport

def Severity.name : Severity → String
  | .error => "Error"
  | .warning => "Warning"
  | .unknown => "Unknown"

def Diagnostic.json (diagnostic : Diagnostic) : Json :=
  .record [("file_name", .optional .text diagnostic.fileName),
    ("line", .optional (fun line => .integer line.toNat) diagnostic.line),
    ("severity", .text diagnostic.severity.name), ("message", .text diagnostic.message)]

end YaraReport
