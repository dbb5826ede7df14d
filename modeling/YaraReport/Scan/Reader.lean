/-
This file reads the scanner's output line by line. A header line begins a rule
and thereby delivers the one before it; a match line adds to the rule in
progress; a blank line only counts. The first violation ends reading for good:
the rule in progress is lost, and every later line is refused without being
looked at.
-/

import YaraReport.Scan.Header
import YaraReport.Scan.MatchLine
import YaraReport.Text.Lines

namespace YaraReport

/-- What a reader is in the middle of. -/
inductive Reader.Progress where
  | idle
  | inRule (rule : Rule)
  | failed
  deriving DecidableEq

/-- A reader of scanner output between two lines. -/
structure Reader where
  progress : Reader.Progress
  lineNumber : Nat
  skipped : Nat
  deriving DecidableEq

namespace Reader

def start : Reader := ⟨.idle, 0, 0⟩

def Progress.pending : Progress → List Rule
  | .inRule rule => [rule]
  | .idle | .failed => []

def inRule (reader : Reader) : Bool := !reader.progress.pending.isEmpty

/-- What a reader does with one line. -/
structure Step where
  reader : Reader
  delivered : List Rule
  notes : List Note
  /-- What is wrong with the line, if anything. -/
  violation : Option Violation

/-- Reads a match line, whose number is already counted. -/
def feedMatch (reader : Reader) (line : String) : Step :=
  match reader.progress with
  | .inRule rule =>
    match MatchLine.read reader.lineNumber line with
    | .ok (identifier, occurrence) =>
      ⟨{ reader with progress := .inRule (rule.pushMatch identifier occurrence) }, [], [], none⟩
    | .error violation => ⟨{ reader with progress := .failed }, [], [], some violation⟩
  | .idle | .failed =>
    ⟨{ reader with progress := .failed }, [], [], some (.orphanMatch reader.lineNumber)⟩

/-- Reads a header line, whose number is already counted. -/
def feedHeader (reader : Reader) (line : String) : Step :=
  let reading := Header.read reader.lineNumber line
  let skipped := reader.skipped + Note.skippedCount reading.notes
  match reading.outcome with
  | .ok rule =>
    ⟨⟨.inRule rule, reader.lineNumber, skipped⟩, reader.progress.pending, reading.notes, none⟩
  | .error violation =>
    ⟨⟨.failed, reader.lineNumber, skipped⟩, reader.progress.pending, reading.notes,
      some violation⟩

def feed (reader : Reader) (line : String) : Step :=
  if reader.progress = .failed then ⟨reader, [], [], some .aborted⟩
  else
    let counted := { reader with lineNumber := reader.lineNumber + 1 }
    if Text.isBlankLine line then ⟨counted, [], [], none⟩
    else if MatchLine.isMarked line then counted.feedMatch line
    else counted.feedHeader line

def finish (reader : Reader) : Except Violation (List Rule) :=
  match reader.progress with
  | .failed => .error .aborted
  | progress => .ok progress.pending

/-! ### Whole captures -/

/-- Reads lines one after the other, also after a violation. -/
def steps (reader : Reader) : List String → List Step
  | [] => []
  | line :: lines => reader.feed line :: steps (reader.feed line).reader lines

structure Stop where
  line : String
  violation : Violation
  deriving DecidableEq, Repr

/-- What reading comes to that ends at the first violation. -/
structure Passage where
  reader : Reader
  /-- The rules delivered, in order. -/
  delivered : List Rule
  /-- The line that ended reading, if one did. -/
  stop : Option Stop

def pass (reader : Reader) : List String → Passage
  | [] => ⟨reader, [], none⟩
  | line :: lines =>
    let step := reader.feed line
    match step.violation with
    | some violation => ⟨step.reader, step.delivered, some ⟨line, violation⟩⟩
    | none =>
      let later := pass step.reader lines
      ⟨later.reader, step.delivered ++ later.delivered, later.stop⟩

end Reader

/-- What a capture of scanner output holds. -/
structure Capture where
  /-- The rules in order. -/
  rules : List Rule
  skipped : Nat
  deriving DecidableEq

namespace Capture

def ofLines (lines : List String) : Except Violation Capture :=
  let passage := Reader.start.pass lines
  match passage.stop with
  | some stop => .error stop.violation
  | none =>
    match passage.reader.finish with
    | .error violation => .error violation
    | .ok last => .ok ⟨passage.delivered ++ last, passage.reader.skipped⟩

def ofText (text : String) : Except Violation Capture := ofLines (Text.lines text)

end Capture

end YaraReport
