/-
This file defines the report on a failure: what happened, where, an excerpt of
the text it happened in, and what may help. In the excerpt every row has the
same margin; under the offending line stands a row of carets below exactly the
characters that the span covers, at least one.
-/

import YaraReport.Failure
import YaraReport.Style
import YaraReport.Text.Blank
import YaraReport.Text.Lines

namespace YaraReport

structure Report where
  message : String
  span : Option Span
  file : Option String
  source : Option String
  /-- The number of the text's first line. -/
  firstLine : Nat
  suggestion : Option String
  help : Option String
  deriving DecidableEq, Repr

namespace Report

def plain (message : String) : Report := ⟨message, none, none, none, 1, none, none⟩

/-! ### Reports on violations -/

def violationHelp : Violation → String
  | .orphanMatch _ => "String match lines must follow a rule header line"
  | .invalidBoolean _ _ => "Bare metadata values must be true or false"
  | .numericDecode _ _ => "Offsets and integers must fit in 64 bits"
  | _ => "Expected `RULE [tags] [meta] TARGET` or `0xOFFSET:$id: data` (yara -g -m -s)"

def violationMessage (violation : Violation) : String :=
  "Invalid scanner output: " ++ violation.message

/-- The report on a violation in a text of which the first line has the given number. -/
def ofViolation (violation : Violation) (file : Option String) (source : String)
    (firstLine : Nat) : Report where
  message := violationMessage violation
  span := violation.span?
  file := file
  source := some source
  firstLine := firstLine
  suggestion := none
  help := some (violationHelp violation)

/-! ### Reports on failures -/

def mentions (message part : String) : Bool := Text.hasInside part.toList message.toList

/-- What to do about a failure that has the given message, and what to know about it. -/
def advice (message : String) : Option String × Option String :=
  if mentions message "Failed to start" then
    (some "Verify yara is installed and in your PATH",
      some ("Point YARA_BINARY_PATH / YARAC_BINARY_PATH or yara_path in .yarapiperc at the " ++
        "executables"))
  else if mentions message "No rules" then
    (some "Pass rule files with --rules or --compiled", none)
  else if mentions message "Compilation failed" then
    (none, some "The diagnostics above point at the offending rules")
  else (none, none)

def ofFailure (failure : Failure) (file : Option String) : Report :=
  match failure with
  | .invalidOutput lineNumber line violation =>
    ofViolation violation file line (max lineNumber 1)
  | .timedOut _ _ =>
    { plain failure.message with
      file := file
      suggestion := some "Raise the limit with --timeout"
      help := some "The default can be set with `timeout = <seconds>` in .yarapiperc" }
  | _ =>
    { plain failure.message with
      file := file
      suggestion := (advice failure.message).1
      help := (advice failure.message).2 }

/-! ### The excerpt -/

/-- What follows the first `count` bytes of a text; nothing when they end inside a
character or beyond the text. -/
def dropBytes? : Nat → List Char → Option (List Char)
  | 0, text => some text
  | _ + 1, [] => none
  | count + 1, character :: rest =>
    if character.utf8Size ≤ count + 1 then dropBytes? (count + 1 - character.utf8Size) rest
    else none

/-- The characters between two byte offsets; nothing when an offset lies inside a character, or
the offsets are in the wrong order. -/
def between? (start stop : Nat) (text : List Char) : Option (List Char) :=
  if start ≤ stop then
    match dropBytes? start text, dropBytes? stop text with
    | some fromStart, some fromStop =>
      some (fromStart.take (fromStart.length - fromStop.length))
    | _, _ => none
  else none

/-- The number of characters that a span covers in a line, at least one. -/
def caretWidth (line : String) (span : Span) : Nat :=
  match between? span.start (min span.stop line.utf8ByteSize) line.toList with
  | some covered => max covered.length 1
  | none => 1

def bar (styled : Bool) : String := " " ++ (Style.strong .blue).paint styled "|" ++ " "

def contextRow (styled : Bool) (width number : Nat) (line : String) : String :=
  Style.dimmed.paint styled (Style.padLeft width (toString number)) ++ bar styled ++ line

def lineRow (styled : Bool) (width number : Nat) (line : String) : String :=
  (Style.strong .blue).paint styled (Style.padLeft width (toString number)) ++ bar styled ++ line

def caretRow (styled : Bool) (width : Nat) (span : Span) (line : String) : String :=
  Style.padLeft width "" ++ bar styled ++ String.ofList (List.replicate (span.column - 1) ' ') ++
    (Style.strong .red).paint styled (String.ofList (List.replicate (caretWidth line span) '^'))

/-- The rows around the line at an index: one line of context on each side. -/
def excerptRows (styled : Bool) (firstLine : Nat) (lines : List String) (index : Nat)
    (line : String) (span : Span) : List String :=
  let stop := min (index + 2) lines.length
  let width := (toString (firstLine + stop)).length
  let before :=
    match index with
    | 0 => []
    | previous + 1 => (lines[previous]?.map (contextRow styled width (firstLine + previous))).toList
  let after := lines[index + 1]?.map (contextRow styled width (firstLine + index + 1))
  before ++ [lineRow styled width (firstLine + index) line, caretRow styled width span line] ++
    after.toList

def excerpt (styled : Bool) (firstLine : Nat) (source : String) (span : Span) : List String :=
  let lines := Text.lines source
  if firstLine ≤ span.line then
    match lines[span.line - firstLine]? with
    | some line => excerptRows styled firstLine lines (span.line - firstLine) line span
    | none => []
  else []

/-! ### The whole report -/

def placeRow (styled : Bool) (report : Report) : List String :=
  match report.file, report.span with
  | some file, some span =>
    ["  " ++ (Style.strong .blue).paint styled "-->" ++ " " ++ file ++ ":" ++
      toString span.line ++ ":" ++ toString span.column]
  | some file, none => ["  " ++ (Style.strong .blue).paint styled "-->" ++ " " ++ file]
  | none, _ => []

/-- The excerpt after an empty row, where the report has one. -/
def sourceRows (styled : Bool) (report : Report) : List String :=
  match report.source, report.span with
  | some source, some span => "" :: excerpt styled report.firstLine source span
  | _, _ => []

def hintRows (styled : Bool) (label : String) (color : Color) : Option String → List String
  | some hint => ["", (Style.strong color).paint styled label ++ " " ++ hint]
  | none => []

def rows (styled : Bool) (report : Report) : List String :=
  ((Style.strong .red).paint styled "error:" ++ " " ++
      Style.bold.paint styled report.message) ::
    (report.placeRow styled ++ report.sourceRows styled ++
      hintRows styled "suggestion:" .green report.suggestion ++
      hintRows styled "help:" .cyan report.help)

def shown (report : Report) : String := report.message

def labelled (report : Report) : String := "EnhancedError: " ++ report.message

end Report

end YaraReport
