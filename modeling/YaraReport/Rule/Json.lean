/-
This file says how what a scan reports is written as JSON.
-/

import YaraReport.Json
import YaraReport.Rule

namespace YaraReport

/-- The value of a metadata entry as a JSON value of its own kind. -/
def MetaValue.json : MetaValue → Json
  | .string text => .text text
  | .integer value => .integer value.toInt
  | .boolean value => .boolean value

def Meta.json (entry : Meta) : Json :=
  .record [("identifier", .text entry.identifier), ("value", entry.value.json)]

def Match.json (occurrence : Match) : Json :=
  .record [("offset", .integer occurrence.offset.toNat), ("value", .text occurrence.value)]

def StringMatch.json (string : StringMatch) : Json :=
  .record [("identifier", .text string.identifier),
    ("matches", .list (string.occurrences.map Match.json))]

def Rule.json (rule : Rule) : Json :=
  .record [("identifier", .text rule.identifier), ("tags", .texts rule.tags),
    ("metadata", .list (rule.metadata.map Meta.json)),
    ("strings", .list (rule.strings.map StringMatch.json))]

/-- What the scan of one target reports. -/
structure TargetReport where
  target : String
  rules : List Rule
  skipped : Nat
  warnings : List String
  deriving DecidableEq

def TargetReport.json (report : TargetReport) : Json :=
  .record [("target", .text report.target), ("rules", .list (report.rules.map Rule.json)),
    ("skipped_entries", .integer report.skipped), ("warnings", .texts report.warnings)]

end YaraReport
