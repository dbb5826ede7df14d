/-
This file reads the lines of the compiler's error stream and counts what they
report. Every line that is not blank is one diagnostic.
-/

import YaraReport.Diagnostic.Draft

namespace YaraReport.Diagnostic

/-- The number of diagnostics of each severity that matters. -/
structure Tally where
  errors : Nat
  warnings : Nat
  deriving DecidableEq, Repr

namespace Tally

def zero : Tally := ⟨0, 0⟩

def count (tally : Tally) (severity : Severity) : Tally :=
  match severity with
  | .error => { tally with errors := tally.errors + 1 }
  | .warning => { tally with warnings := tally.warnings + 1 }
  | .unknown => tally

structure Step where
  tally : Tally
  /-- The diagnostic of the line, if it is not blank. -/
  delivered : List Diagnostic
  notes : List Note

def feed (tally : Tally) (line : String) : Step :=
  if Text.isBlankLine line then ⟨tally, [], []⟩
  else
    let reading := read line
    ⟨tally.count reading.1.severity, [reading.1], reading.2⟩

def steps (tally : Tally) : List String → List Step
  | [] => []
  | line :: lines => tally.feed line :: steps (tally.feed line).tally lines

def feedAll (tally : Tally) : List String → Tally × List Diagnostic
  | [] => (tally, [])
  | line :: lines =>
    let step := tally.feed line
    let later := feedAll step.tally lines
    (later.1, step.delivered ++ later.2)

end Tally

end YaraReport.Diagnostic
