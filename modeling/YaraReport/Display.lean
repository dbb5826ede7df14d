/-
This file writes rules and diagnostics for a reader at a terminal. A rule is one
line for its name, tags and target, one line for each metadata entry, and for
each of its strings one line followed by one line for each match.
-/

import YaraReport.Diagnostic
import YaraReport.Rule
import YaraReport.Style
import YaraReport.Text.Numeral

namespace YaraReport

def Match.offsetText (occurrence : Match) : String :=
  String.ofList ('0' :: 'x' :: Text.hex occurrence.offset.toNat)

def Match.reportLine (styled : Bool) (occurrence : Match) : String :=
  "    " ++ Style.dimmed.paint styled occurrence.offsetText ++ ": " ++ occurrence.value

def StringMatch.reportLines (styled : Bool) (string : StringMatch) : List String :=
  ("  " ++ (Style.plain .yellow).paint styled string.identifier) ::
    string.occurrences.map (Match.reportLine styled)

def Meta.reportLine (entry : Meta) : String :=
  "  " ++ entry.identifier ++ " = " ++ entry.value.shown

namespace Rule

/-- The first line of a rule: its name, its tags if it bears any, and the target if known. -/
def headLine (styled : Bool) (target : Option String) (rule : Rule) : String :=
  (Style.strong .green).paint styled rule.identifier ++
    (if rule.tags.isEmpty then ""
      else " [" ++ (Style.plain .cyan).paint styled (",".intercalate rule.tags) ++ "]") ++
    (match target with
      | some target => " " ++ Style.dimmed.paint styled target
      | none => "")

def reportLines (styled : Bool) (target : Option String) (rule : Rule) : List String :=
  rule.headLine styled target ::
    (rule.metadata.map Meta.reportLine ++
      rule.strings.flatMap (StringMatch.reportLines styled))

def report (styled : Bool) (target : Option String) (rule : Rule) : String :=
  String.join ((rule.reportLines styled target).map fun line => line ++ "\n")

end Rule

namespace Diagnostic

def label (styled : Bool) : Severity → String
  | .error => (Style.strong .red).paint styled "error:"
  | .warning => (Style.strong .yellow).paint styled "warning:"
  | .unknown => Style.dimmed.paint styled "note:"

def location (diagnostic : Diagnostic) : String :=
  match diagnostic.fileName, diagnostic.line with
  | some file, some line => file ++ ":" ++ lineText line ++ ": "
  | some file, none => file ++ ": "
  | none, _ => ""

def report (styled : Bool) (diagnostic : Diagnostic) : String :=
  diagnostic.location ++ label styled diagnostic.severity ++ " " ++ diagnostic.message

end Diagnostic

end YaraReport
