/-
This file proves that the report on a violation points at the right place. The
span of a violation lies in the line that its number names, what the violation
quotes stands there, and the excerpt shows that line under its number with carets
below exactly the characters of the span. It does so for a capture, whose text is
cut into lines again for the report, as for a scan, whose report holds one line
alone.

Spans count bytes and rows count characters. `Span.Covers.marks_iff` is where the
two meet; what the rows look like is said in characters only.
-/

import YaraReport.Proofs.Outcome
import YaraReport.Proofs.Text.Lines
import YaraReport.Proofs.Text.Numerals
import YaraReport.Proofs.Token.Tiling
import YaraReport.Report

namespace YaraReport

open Child (Arrival Brings)
open Lexer (byteLength)

/-! ### Bytes and characters -/

namespace Lexer

theorem byteLength_pos {text : List Char} (nonempty : text ≠ []) : 0 < byteLength text := by
  cases text with
  | nil => exact absurd rfl nonempty
  | cons character rest => exact Nat.add_pos_left character.utf8Size_pos _

/-- A character of a text begins within the first bytes if it is one of the first characters. -/
theorem byteLength_take_lt_iff (front back : List Char) (position : Nat) :
    byteLength ((front ++ back).take position) < byteLength front ↔ position < front.length := by
  rcases Nat.lt_or_ge position front.length with within | beyond
  · have left : front.drop position ≠ [] := fun nothing =>
      Nat.not_le_of_lt within (List.drop_eq_nil_iff.mp nothing)
    have whole : byteLength front =
        byteLength (front.take position) + byteLength (front.drop position) := by
      rw [← byteLength_append, List.take_append_drop]
    refine iff_of_true ?_ within
    rw [List.take_append_of_le_length (Nat.le_of_lt within), whole]
    exact Nat.lt_add_of_pos_right (byteLength_pos left)
  · refine iff_of_false (Nat.not_lt_of_le ?_) (Nat.not_lt_of_le beyond)
    rw [List.take_append, List.take_of_length_le beyond, byteLength_append]
    exact Nat.le_add_right _ _

end Lexer

/-- Whether a caret belongs below the character at a position of a line: its first byte is in the
span. A span of nothing has one caret, at its column. -/
def Span.Marks (line : String) (span : Span) (position : Nat) : Prop :=
  if span.start = span.stop then position + 1 = span.column
  else span.start ≤ byteLength (line.toList.take position) ∧
    byteLength (line.toList.take position) < span.stop

namespace Report

theorem dropBytes?_append (front back : List Char) :
    dropBytes? (byteLength front) (front ++ back) = some back := by
  induction front with
  | nil => cases back <;> rfl
  | cons character front inductionHypothesis =>
    have size := character.utf8Size_pos
    have total : byteLength (character :: front) = character.utf8Size + byteLength front := rfl
    obtain ⟨count, next⟩ := Nat.exists_eq_add_one.mpr (Nat.add_pos_left size (byteLength front))
    rw [total, next, List.cons_append, dropBytes?, ← next, if_pos (Nat.le_add_right _ _),
      Nat.add_sub_cancel_left, inductionHypothesis]

theorem between?_append (before part after : List Char) :
    between? (byteLength before) (byteLength before + byteLength part)
      (before ++ (part ++ after)) = some part := by
  have stop := dropBytes?_append (before ++ part) after
  rw [Lexer.byteLength_append, List.append_assoc] at stop
  rw [between?, if_pos (Nat.le_add_right _ _), dropBytes?_append, stop]
  dsimp only
  rw [List.length_append, Nat.add_sub_cancel, List.take_left]

end Report

namespace Span.Covers

variable {number : Nat} {line : String} {span : Span} {part : List Char}

/-- The width of the carets is the number of characters that are covered, and at least one. -/
theorem caretWidth_eq (covers : span.Covers number line.toList part) :
    Report.caretWidth line span = max part.length 1 := by
  have inside := covers.fits.inside
  obtain ⟨before, after, whole, rfl⟩ := covers
  rw [Report.caretWidth, Nat.min_eq_left inside, whole, Report.between?_append]

/-- The characters with a caret follow those before the span, as many as the carets are wide. -/
theorem marks_iff (covers : span.Covers number line.toList part) (position : Nat) :
    span.Marks line position ↔
      span.column - 1 ≤ position ∧ position < span.column - 1 + Report.caretWidth line span := by
  rw [covers.caretWidth_eq]
  obtain ⟨before, after, whole, rfl⟩ := covers
  show (if byteLength before = byteLength before + byteLength part then
      position + 1 = before.length + 1 else _) ↔
    before.length ≤ position ∧ position < before.length + max part.length 1
  -- A span of nothing is marked by its column, any other by the bytes of its characters.
  by_cases nothing : part = []
  · subst nothing
    rw [if_pos (show byteLength before = byteLength before + byteLength [] from rfl)]
    show position + 1 = before.length + 1 ↔
      before.length ≤ position ∧ position < before.length + 1
    omega
  · have size := Lexer.byteLength_pos nothing
    have count := List.length_pos_of_ne_nil nothing
    have first := Lexer.byteLength_take_lt_iff before (part ++ after) position
    have last := Lexer.byteLength_take_lt_iff (before ++ part) after position
    rw [Lexer.byteLength_append, List.append_assoc, List.length_append] at last
    rw [if_neg (Nat.ne_of_lt (Nat.lt_add_of_pos_right size)), whole, last, ← Nat.not_lt, first,
      Nat.not_lt, Nat.max_eq_left count]

end Span.Covers

/-! ### Rows -/

theorem Style.paint_false (style : Style) (text : String) : style.paint false text = text := rfl

namespace Report

/-- A row of an excerpt: a margin of a given width, a bar, and a text. -/
structure IsRow (width : Nat) (margin text row : String) : Prop where
  shape : row = margin ++ " | " ++ text
  width : margin.length = width
  clear : '|' ∉ margin.toList

/-- Rows show a line under its number and mark in it what a span covers. The bars of all rows stand
in one column, and a caret stands below each character that the span marks and nowhere else. -/
inductive Shows (number : Nat) (line : String) (span : Span) (rows : List String) : Prop where
  | intro (width : Nat) (indent blank marks shown carets : String) (before after : List String)
      (parts : rows = before ++ shown :: carets :: after)
      (aligned : ∀ row ∈ rows, ∃ margin text, IsRow width margin text row)
      (numbered : IsRow width (indent ++ toString number) line shown)
      (marked : IsRow width blank marks carets)
      (indented : Text.isBlankLine indent = true) (unnumbered : Text.isBlankLine blank = true)
      (only : ∀ character ∈ marks.toList, character = ' ' ∨ character = '^')
      (placed : ∀ position, marks.toList[position]? = some '^' ↔ span.Marks line position)

/-- A report without styles shows a line under its number and marks in it what a span covers. -/
def Pinpoints (report : Report) (number : Nat) (line : String) (span : Span) : Prop :=
  ∃ rows, report.sourceRows false = "" :: rows ∧ "" :: rows <:+: report.rows false ∧
    Shows number line span rows

/-! ### Margins -/

theorem length_toString_mono {small large : Nat} (le : small ≤ large) :
    (toString small).length ≤ (toString large).length := by
  have positive : 0 < (Nat.repr large).length := by
    rw [← String.length_toList, Nat.toList_repr]
    exact Nat.length_toDigits_pos
  exact (Nat.length_repr_le_iff positive).mpr
    (Nat.lt_of_le_of_lt le ((Nat.length_repr_le_iff positive).mp (Nat.le_refl _)))

theorem padLeft_eq (width : Nat) (text : String) :
    Style.padLeft width text =
      String.ofList (List.replicate (width - text.length) ' ') ++ text := by
  rw [Style.padLeft, String.ofList_append, String.ofList_toList]

theorem isBlankLine_spaces (count : Nat) :
    Text.isBlankLine (String.ofList (List.replicate count ' ')) = true := by
  rw [Text.isBlankLine, String.toList_ofList, List.all_replicate]
  split <;> decide

theorem isBlankLine_padLeft (width : Nat) : Text.isBlankLine (Style.padLeft width "") = true := by
  rw [padLeft_eq, String.append_empty]
  exact isBlankLine_spaces _

theorem length_padLeft {width : Nat} {text : String} (fits : text.length ≤ width) :
    (Style.padLeft width text).length = width := by
  rw [padLeft_eq, String.length_append, String.length_ofList, List.length_replicate,
    Nat.sub_add_cancel fits]

theorem bar_not_mem_padLeft {width : Nat} {text : String} (clear : '|' ∉ text.toList) :
    '|' ∉ (Style.padLeft width text).toList := by
  rw [padLeft_eq, String.toList_append, String.toList_ofList, List.mem_append, not_or]
  exact ⟨fun inside => absurd (List.eq_of_mem_replicate inside) (by decide), clear⟩

/-- A row whose margin holds a number that is not too wide. -/
theorem isRow_contextRow {width number : Nat} (fits : (toString number).length ≤ width)
    (text : String) :
    IsRow width (Style.padLeft width (toString number)) text
      (contextRow false width number text) :=
  ⟨rfl, length_padLeft fits, bar_not_mem_padLeft (Text.not_mem_toString rfl number)⟩

/-- Without styles the line itself stands in a row like those around it. -/
theorem lineRow_eq (width number : Nat) (line : String) :
    lineRow false width number line = contextRow false width number line := by
  rw [lineRow, contextRow, Style.paint_false, Style.paint_false]

/-! ### The rows of an excerpt -/

/-- What stands below a line in its excerpt, behind the bar. -/
def caretText (span : Span) (line : String) : String :=
  String.ofList
    (List.replicate (span.column - 1) ' ' ++ List.replicate (caretWidth line span) '^')

theorem isRow_caretRow (width : Nat) (span : Span) (line : String) :
    IsRow width (Style.padLeft width "") (caretText span line)
      (caretRow false width span line) := by
  refine ⟨?_, length_padLeft (Nat.zero_le width), bar_not_mem_padLeft List.not_mem_nil⟩
  rw [caretText, String.ofList_append, ← String.append_assoc]
  rfl

theorem mem_caretText {span : Span} {line : String} {character : Char}
    (member : character ∈ (caretText span line).toList) : character = ' ' ∨ character = '^' := by
  rw [caretText, String.toList_ofList] at member
  rcases List.mem_append.mp member with blank | caret
  · exact .inl (List.eq_of_mem_replicate blank)
  · exact .inr (List.eq_of_mem_replicate caret)

theorem caretText_getElem? (span : Span) (line : String) (position : Nat) :
    (caretText span line).toList[position]? = some '^' ↔
      span.column - 1 ≤ position ∧ position < span.column - 1 + caretWidth line span := by
  rw [caretText, String.toList_ofList]
  rcases Nat.lt_or_ge position (span.column - 1) with before | behind
  · rw [List.getElem?_append_left (by rwa [List.length_replicate]), List.getElem?_replicate,
      if_pos before]
    exact iff_of_false (by decide) fun inside => Nat.not_lt_of_le inside.1 before
  · rw [List.getElem?_append_right (by rwa [List.length_replicate]), List.length_replicate,
      List.getElem?_replicate, and_iff_right behind, ← Nat.sub_lt_iff_lt_add' behind]
    split
    · exact iff_of_true rfl ‹_›
    · exact iff_of_false (fun other => by cases other) ‹_›

/-- The margin of an excerpt has room for the number of every line up to the next one. -/
theorem margin_fits (firstLine : Nat) {index shown : Nat} {lines : List String} {text : String}
    (own : lines[shown]? = some text) (near : shown ≤ index + 1) :
    (toString (firstLine + shown)).length ≤
      (toString (firstLine + min (index + 2) lines.length)).length := by
  obtain ⟨inside, -⟩ := List.getElem?_eq_some_iff.mp own
  exact length_toString_mono
    (Nat.add_le_add_left (Nat.le_min.mpr ⟨Nat.le_succ_of_le near, Nat.le_of_lt inside⟩) firstLine)

/-- The rows of an excerpt: the line itself with its carets, between lines next to it. The margin
has room for their numbers. -/
theorem excerptRows_parts (firstLine index : Nat) (lines : List String) (line : String)
    (span : Span) :
    ∃ width before after, excerptRows false firstLine lines index line span =
        before ++ lineRow false width (firstLine + index) line ::
          caretRow false width span line :: after ∧
      (∀ shown text, lines[shown]? = some text → shown ≤ index + 1 →
        (toString (firstLine + shown)).length ≤ width) ∧
      ∀ row ∈ before ++ after, ∃ shown text, lines[shown]? = some text ∧ shown ≤ index + 1 ∧
        row = contextRow false width (firstLine + shown) text := by
  refine ⟨(toString (firstLine + min (index + 2) lines.length)).length, ?_⟩
  unfold excerptRows
  cases index with
  | zero =>
    refine ⟨[], _, rfl, fun _ _ => margin_fits firstLine, fun row member => ?_⟩
    obtain ⟨text, next, rfl⟩ := Option.map_eq_some_iff.mp (Option.mem_toList.mp member)
    exact ⟨1, text, next, Nat.le_refl 1, rfl⟩
  | succ previous =>
    refine ⟨_, _, List.append_assoc _ _ _, fun _ _ => margin_fits firstLine, fun row member => ?_⟩
    rcases List.mem_append.mp member with before | after
    · obtain ⟨text, former, rfl⟩ := Option.map_eq_some_iff.mp (Option.mem_toList.mp before)
      exact ⟨previous, text, former, Nat.le_add_right previous 2, rfl⟩
    · obtain ⟨text, next, rfl⟩ := Option.map_eq_some_iff.mp (Option.mem_toList.mp after)
      exact ⟨previous + 2, text, next, Nat.le_refl _, rfl⟩

/-- An excerpt shows the line at its index and marks what the span covers there. -/
theorem shows_excerptRows {firstLine index : Nat} {lines : List String} {line : String}
    {span : Span} {part : List Char}
    (covers : span.Covers (firstLine + index) line.toList part)
    (own : lines[index]? = some line) :
    Shows (firstLine + index) line span (excerptRows false firstLine lines index line span) := by
  obtain ⟨width, before, after, parts, fits, context⟩ :=
    excerptRows_parts firstLine index lines line span
  have numbered := isRow_contextRow (fits index line own (Nat.le_succ index)) line
  have neighbour (row : String) (member : row ∈ before ++ after) :
      ∃ margin text, IsRow width margin text row := by
    obtain ⟨shown, text, own, near, rfl⟩ := context row member
    exact ⟨_, text, isRow_contextRow (fits shown text own near) text⟩
  have carets := isRow_caretRow width span line
  rw [padLeft_eq, ← lineRow_eq] at numbered
  rw [parts]
  refine .intro width _ _ (caretText span line) _ _ before after rfl ?_ numbered carets
    (isBlankLine_spaces _) (isBlankLine_padLeft width) (fun _ => mem_caretText) fun position => ?_
  · intro row member
    rcases List.mem_append.mp member with former | later
    · exact neighbour row (List.mem_append_left _ former)
    rcases List.mem_cons.mp later with rfl | later
    · exact ⟨_, line, numbered⟩
    rcases List.mem_cons.mp later with rfl | later
    · exact ⟨_, _, carets⟩
    · exact neighbour row (List.mem_append_right _ later)
  · rw [caretText_getElem?, covers.marks_iff]

/-- The first line of two is shown with the one after it, and the carets count characters. -/
example : excerptRows false 1 ["é=üü", "x"] 0 "é=üü" ⟨1, 3, 3, 7⟩ =
    ["1 | é=üü", "  |   ^^", "2 | x"] := by decide +kernel

/-! ### Reports -/

/-- A report whose text has a line under a number marks what its span covers in that line. -/
theorem pinpoints_of_covers {report : Report} {source line : String} {index number : Nat}
    {span : Span} {part : List Char} (text : report.source = some source)
    (place : report.span = some span) (counted : report.firstLine + index = number)
    (covers : span.Covers number line.toList part)
    (own : (Text.lines source)[index]? = some line) :
    report.Pinpoints number line span := by
  subst counted
  have rows : report.sourceRows false =
      "" :: excerptRows false report.firstLine (Text.lines source) index line span := by
    rw [sourceRows, text, place]
    dsimp only
    rw [excerpt, covers.line_eq, if_pos (Nat.le_add_right _ _), Nat.add_sub_cancel_left, own]
  refine ⟨_, rows, ?_, shows_excerptRows covers own⟩
  rw [← rows, Report.rows, List.append_assoc, List.append_assoc, ← List.cons_append]
  exact List.infix_append' _ _ _

end Report

/-! ### Violations -/

namespace Violation

/-- A violation quotes what stands at its span in a line. -/
def Quotes (line : String) : Violation → Prop
  | .unexpectedToken _ found span => Text.between line span.start span.stop = found.shown
  | .numericDecode text span | .invalidBoolean text span =>
    Text.between line span.start span.stop = text
  | .unexpectedEnd _ _ | .orphanMatch _ | .lex _ | .aborted => True

theorem In.quotes {number : Nat} {line : String} {violation : Violation}
    (placed : violation.In number line.toList) : violation.Quotes line := by
  cases violation with
  | unexpectedToken expected found span => exact placed.between_eq
  | numericDecode text span | invalidBoolean text span =>
    exact placed.between_eq.trans String.ofList_toList
  | unexpectedEnd | orphanMatch | lex | aborted => trivial

/-- A violation in a line stands at a span of it, unless it is a match without a rule. -/
theorem In.exists_span {number : Nat} {text : List Char} {violation : Violation}
    (placed : violation.In number text) (matched : ∀ number, violation ≠ .orphanMatch number) :
    ∃ span part, violation.span? = some span ∧ span.Covers number text part := by
  cases violation with
  | unexpectedToken expected found span => exact ⟨span, _, rfl, placed⟩
  | numericDecode numeral span => exact ⟨span, _, rfl, placed⟩
  | invalidBoolean word span => exact ⟨span, _, rfl, placed⟩
  | unexpectedEnd expected span =>
    obtain ⟨part, covers⟩ := placed
    exact ⟨span, part, rfl, covers⟩
  | lex error =>
    obtain ⟨part, covers⟩ := placed
    exact ⟨error.span, part, rfl, covers⟩
  | orphanMatch number => exact absurd rfl (matched number)
  | aborted => exact placed.elim

end Violation

/-- A line that is rejected holds something. -/
theorem Reader.visible_of_rejected {before : List String} {line : String} {violation : Violation}
    (accepted : start.Accepts before)
    (violates : ((start.after before).feed line).violation = some violation) :
    line.toList ≠ [] := by
  intro nothing
  have blank : Text.isBlankLine line = true := by
    rw [Text.isBlankLine, nothing]
    rfl
  rw [feed_blank (delivers_of_accepts accepted).1 blank] at violates
  cases violates

namespace Scanner

/-- A scan that is not overdue fails at the first line that breaks the format. -/
theorem scanFile_rejects {scanner : Scanner} {machine : Machine} {target : String}
    {modules : ModuleData} {started : Machine.Started}
    (starts : scanner.Starts machine target modules started) {before later error : List String}
    {line : String} {violation : Violation} (accepted : Reader.start.Accepts before)
    (violates : ((Reader.start.after before).feed line).violation = some violation)
    (brings : Brings (before ++ line :: later) error (started.run.arrivals.map Arrival.event))
    (inTime : ∀ failure, (scanner.scanFile machine target modules).outcome = .error failure →
      failure.isOverdue = false) :
    (scanner.scanFile machine target modules).outcome =
      .error (.invalidOutput (before.length + 1) line violation) := by
  obtain ⟨path, -, launched, whole⟩ := scanFile_cases starts
  rw [whole] at inTime ⊢
  have reflects := handle_consumer ⟨Reader.start, [], []⟩ (started.run.arrivals.map Arrival.event)
  have cause := reflects.cause
  rw [brings.output_eq] at cause
  dsimp only at cause
  obtain ⟨-, number, -⟩ := Reader.rejected_line accepted violates
  rw [Reader.pass_of_rejects accepted violates, number] at cause
  rcases Executable.run_cases launched brings.closes fun failure failed =>
    inTime failure (conclude_outcome_error failed) with
    ⟨final, failure, handled, ran⟩ | ⟨final, ended, handled, -, -⟩
  · rw [handled] at cause
    rw [ran]
    exact conclude_outcome_error (congrArg Except.error (Option.some.inj cause))
  · rw [handled] at cause
    cases cause

end Scanner

namespace Violation

/-- A violation of a text is pinpointed: it names a line of the text and a span in that line, it
quotes what stands at the span, and the reports on it show the line and mark the span. There are two
reports, one on the text as a capture and one on a scan that prints the same lines. -/
structure Pinpointed (text : String) (violation : Violation) (position : Nat) (line : String)
    (span : Span) : Prop where
  number : violation.line? = some (position + 1)
  own : (Text.lines text)[position]? = some line
  place : violation.span? = some span
  fits : span.Fits line (position + 1)
  quotes : violation.Quotes line
  capture (file : Option String) :
    (Report.ofViolation violation file text 1).Pinpoints (position + 1) line span
  scan {scanner : Scanner} {machine : Machine} {target : String} {modules : ModuleData}
    {started : Machine.Started} {error : List String}
    (starts : scanner.Starts machine target modules started)
    (brings : Brings (Text.lines text) error (started.run.arrivals.map Arrival.event))
    (inTime : ∀ failure, (scanner.scanFile machine target modules).outcome = .error failure →
      failure.isOverdue = false) :
    (scanner.scanFile machine target modules).outcome =
      .error (.invalidOutput (position + 1) line violation)
  failure (file : Option String) :
    (Report.ofFailure (.invalidOutput (position + 1) line violation) file).Pinpoints
      (position + 1) line span

/-- Every violation of a text is pinpointed, unless it is a match without a rule. -/
theorem exists_pinpointed {text : String} {violation : Violation}
    (broken : Capture.ofText text = .error violation)
    (matched : ∀ number, violation ≠ .orphanMatch number) :
    ∃ position line span, violation.Pinpointed text position line span := by
  rcases Reader.accepts_or_rejects Reader.start (Text.lines text) with
    accepted | ⟨before, line, later, cause, parts, accepted, violates⟩
  · rw [Capture.ofText, Capture.ofLines_of_accepts accepted] at broken
    cases broken
  rw [Capture.ofText, parts, Capture.ofLines_of_rejects accepted violates] at broken
  obtain rfl := Except.error.inj broken
  obtain ⟨-, -, placed⟩ := Reader.rejected_line accepted violates
  obtain ⟨span, part, place, covers⟩ := placed.exists_span matched
  have own : (Text.lines text)[before.length]? = some line := by
    rw [parts, List.getElem?_append_right (Nat.le_refl _), Nat.sub_self]
    rfl
  -- The report on a scan cuts this one line into lines once more.
  have alone : (Text.lines line)[0]? = some line := by
    rw [Text.lines_of_not_mem (Text.newline_not_mem (List.mem_of_getElem? own))
      (Reader.visible_of_rejected accepted violates)]
    rfl
  refine ⟨before.length, line, span, placed.line?_eq, own, place, covers.fits, placed.quotes,
    fun file => ?_, fun starts brings inTime => ?_, fun file => ?_⟩
  · exact Report.pinpoints_of_covers rfl place (Nat.add_comm 1 before.length) covers own
  · rw [parts] at brings
    exact Scanner.scanFile_rejects starts accepted violates brings inTime
  · have first : max (before.length + 1) 1 + 0 = before.length + 1 :=
      Nat.max_eq_left (Nat.le_add_left 1 before.length)
    exact Report.pinpoints_of_covers rfl place first covers alone

/-- A word of wide characters behind a wide character, in a text with carriage returns. -/
theorem exists_pinpointed_wide :
    Capture.ofText "a [] []\r\n\r\nb [] [é=üü] t\n" =
        .error (.invalidBoolean "üü" ⟨3, 9, 9, 13⟩) ∧
      Pinpointed "a [] []\r\n\r\nb [] [é=üü] t\n" (.invalidBoolean "üü" ⟨3, 9, 9, 13⟩) 2
        "b [] [é=üü] t" ⟨3, 9, 9, 13⟩ := by
  have broken : Capture.ofText "a [] []\r\n\r\nb [] [é=üü] t\n" =
      .error (.invalidBoolean "üü" ⟨3, 9, 9, 13⟩) := by decide +kernel
  refine ⟨broken, ?_⟩
  obtain ⟨position, line, span, pinpointed⟩ :=
    exists_pinpointed broken fun number same => by cases same
  obtain rfl : 2 = position := Nat.succ.inj (Option.some.inj pinpointed.number)
  obtain rfl : _ = span := Option.some.inj pinpointed.place
  have third : (Text.lines "a [] []\r\n\r\nb [] [é=üü] t\n")[2]? = some "b [] [é=üü] t" := by
    decide +kernel
  obtain rfl : _ = line := Option.some.inj (third.symm.trans pinpointed.own)
  exact pinpointed

end Violation

end YaraReport
