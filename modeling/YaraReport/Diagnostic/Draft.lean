/-
This file reads a diagnostic, the line

    FILE(LINE): SEVERITY: MESSAGE

character by character. A draft holds what is known of the diagnostic in the
middle of the line: it is always at one of four parts of the line and collects
the text of that part, and the character that ends a part hands the text over. A
line that ends before its last part is kept whole as the message of a diagnostic
of unknown severity.
-/

import YaraReport.Diagnostic
import YaraReport.Note
import YaraReport.Text.Blank
import YaraReport.Text.Numeral

namespace YaraReport.Diagnostic

inductive Part where
  | fileName
  | lineNumber
  | severity
  | message
  deriving DecidableEq, Repr

/-- A diagnostic in the middle of its line. -/
structure Draft where
  part : Part
  buffer : String
  fileName : Option String
  line : Option UInt32
  severity : Option Severity
  deriving DecidableEq, Repr

namespace Draft

def start : Draft := ⟨.fileName, "", none, none, none⟩

/-- The text collected so far, without the blanks around it. -/
def text (draft : Draft) : List Char := Text.trim draft.buffer.toList

/-- The number that a text denotes, when it fits a machine word. -/
def lineNumber? (text : List Char) : Option UInt32 :=
  match Text.plusDecimal? text with
  | some value => if value < UInt32.size then some (UInt32.ofNat value) else none
  | none => none

/-- The severity that a text stands for: an error when it begins with `err` in any case of its
letters, else a warning. -/
def severityOf (text : List Char) : Severity :=
  if ['e', 'r', 'r'].isPrefixOf (text.map Char.toLower) then .error else .warning

def collect (draft : Draft) (character : Char) : Draft :=
  { draft with buffer := draft.buffer.push character }

def lineNotes (text : List Char) : List Note :=
  if (lineNumber? text).isSome then [] else [.nonNumericLine (String.ofList text)]

def feed (draft : Draft) (character : Char) : Draft × List Note :=
  match draft.part with
  | .fileName =>
    if character = '(' then
      ({ draft with
          part := .lineNumber, buffer := "", fileName := some (String.ofList draft.text) }, [])
    else (draft.collect character, [])
  | .lineNumber =>
    if character = ')' then (draft, [])
    else if character = ':' then
      ({ draft with part := .severity, buffer := "", line := lineNumber? draft.text },
        lineNotes draft.text)
    else (draft.collect character, [])
  | .severity =>
    if character = ':' then
      ({ draft with
          part := .message, buffer := "", severity := some (severityOf draft.text) }, [])
    else (draft.collect character, [])
  | .message => (draft.collect character, [])

def feedAll (draft : Draft) : List Char → Draft × List Note
  | [] => (draft, [])
  | character :: rest =>
    let step := draft.feed character
    let later := feedAll step.1 rest
    (later.1, step.2 ++ later.2)

def finish (draft : Draft) (line : String) : Diagnostic :=
  match draft.part, draft.severity with
  | .message, some severity =>
    ⟨draft.fileName, draft.line, severity, String.ofList draft.text⟩
  | _, _ => ⟨draft.fileName, draft.line, .unknown, Text.trimmed line⟩

end Draft

def read (line : String) : Diagnostic × List Note :=
  let scanned := Draft.start.feedAll line.toList
  (scanned.1.finish line, scanned.2)

def ofLine (line : String) : Diagnostic := (read line).1

end YaraReport.Diagnostic
