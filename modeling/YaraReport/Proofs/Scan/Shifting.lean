/-
This file proves that the number of a line is only ever passed on. What is read
off a line that stands further down is the same, except that every place in it
names the later line: tokens, groups, violations and notes alike. So a reader
that has counted more lines and more left-out entries does with each line what
it would have done before.

The main statements are `Header.read_later`, `MatchLine.read_later` and
`Reader.pass_later`.
-/

import Mathlib.Data.List.Basic
import YaraReport.Proofs.Scan.Feeding
import YaraReport.Proofs.Token.Reading

namespace YaraReport

/-! ### Places some lines later -/

variable (count : Nat)

def Span.later (span : Span) : Span := { span with line := span.line + count }

def LexError.later : LexError → LexError
  | .unterminatedString span => .unterminatedString (span.later count)

def Lexeme.later (lexeme : Lexeme) : Lexeme := { lexeme with span := lexeme.span.later count }

def Group.later (group : Group) : Group :=
  ⟨group.body.map (Lexeme.later count), group.stop.later count⟩

/-- A violation some lines later, and otherwise the same. -/
def Violation.later : Violation → Violation
  | .unexpectedToken expected found span => .unexpectedToken expected found (span.later count)
  | .unexpectedEnd expected span => .unexpectedEnd expected (span.later count)
  | .orphanMatch line => .orphanMatch (line + count)
  | .numericDecode text span => .numericDecode text (span.later count)
  | .invalidBoolean text span => .invalidBoolean text (span.later count)
  | .lex error => .lex (error.later count)
  | .aborted => .aborted

def Note.later : Note → Note
  | .skippedEntry list first => .skippedEntry list (first.later count)
  | .ignoredTokens identifier span => .ignoredTokens identifier (span.later count)
  | .header identifier tags metadata => .header identifier tags metadata
  | .nonNumericLine text => .nonNumericLine text

/-- A result with its error and its value changed. -/
def changed {Error Value : Type} (onError : Error → Error) (onValue : Value → Value) :
    Except Error Value → Except Error Value
  | .error error => .error (onError error)
  | .ok value => .ok (onValue value)

def Reading.later {Value : Type} (reading : Reading Value) : Reading Value :=
  ⟨reading.notes.map (Note.later count), changed (Violation.later count) id reading.outcome⟩

theorem Lexeme.kind_later (lexeme : Lexeme) : (lexeme.later count).kind = lexeme.kind := rfl

theorem Span.merge_later (first second : Span) :
    (first.later count).merge (second.later count) = (first.merge second).later count := by
  have same : first.line + count = second.line + count ↔ first.line = second.line :=
    Nat.add_right_cancel_iff
  simp only [merge, later, Nat.add_min_add_right, same]

theorem Note.skippedCount_later (notes : List Note) :
    skippedCount (notes.map (later count)) = skippedCount notes := by
  rw [skippedCount, List.countP_map]
  refine List.countP_congr fun note _ => ?_
  cases note <;> exact Iff.rfl

/-! ### Reading tokens -/

namespace Lexer

def later (lexer : Lexer) : Lexer := { lexer with line := lexer.line + count }

theorem next_later (lexer : Lexer) :
    (lexer.later count).next =
      (changed (LexError.later count) (Lexeme.later count) lexer.next.1,
        lexer.next.2.later count) := by
  cases found : Token.read? (lexer.rest.dropWhile Text.isBlank) with
  | none =>
    rw [next_of_read?_none found, @next_of_read?_none (lexer.later count) found]
    rfl
  | some parts =>
    rw [next_of_read? found, @next_of_read? (lexer.later count) _ _ found]
    rfl

theorem expect_later (lexer : Lexer) (kind : Token.Kind) :
    (lexer.later count).expect kind =
      (changed (Violation.later count) (Lexeme.later count) (lexer.expect kind).1,
        (lexer.expect kind).2.later count) := by
  unfold expect
  rw [next_later]
  obtain ⟨_ | lexeme, after⟩ := lexer.next
  · rfl
  · dsimp only [changed]
    rw [Lexeme.kind_later]
    by_cases same : lexeme.kind = kind
    · rw [if_pos same, if_pos same]
    · rw [if_neg same, if_neg same]
      by_cases empty : lexeme.kind = .empty
      · rw [if_pos empty, if_pos empty]
        rfl
      · rw [if_neg empty, if_neg empty]
        rfl

theorem expectAll_later (lexer : Lexer) (kinds : List Token.Kind) :
    (lexer.later count).expectAll kinds =
      (changed (Violation.later count) (List.map (Lexeme.later count)) (lexer.expectAll kinds).1,
        (lexer.expectAll kinds).2.later count) := by
  induction kinds generalizing lexer with
  | nil => rfl
  | cons kind kinds inductionHypothesis =>
    rw [expectAll, expectAll, expect_later]
    obtain ⟨_ | lexeme, after⟩ := lexer.expect kind
    · rfl
    · dsimp only [changed]
      rw [inductionHypothesis]
      obtain ⟨_ | lexemes, final⟩ := after.expectAll kinds <;> rfl

theorem nextUntil_later (stops : List Token.Kind) (lexer : Lexer) :
    nextUntil stops (lexer.later count) =
      (changed (LexError.later count) (Group.later count) (nextUntil stops lexer).1,
        (nextUntil stops lexer).2.later count) := by
  fun_induction nextUntil stops lexer with
  | case1 lexer error after found =>
    rw [nextUntil_eq, next_later, found]
    rfl
  | case2 lexer lexeme after found ended =>
    rw [nextUntil_eq, next_later, found]
    exact if_pos ended
  | case3 lexer lexeme middle found ended _ error after readTail inductionHypothesis =>
    rw [nextUntil_eq, next_later, found]
    dsimp only [changed]
    rw [Lexeme.kind_later, if_neg ended, inductionHypothesis, readTail]
    rfl
  | case4 lexer lexeme middle found ended _ tail after readTail inductionHypothesis =>
    rw [nextUntil_eq, next_later, found]
    dsimp only [changed]
    rw [Lexeme.kind_later, if_neg ended, inductionHypothesis, readTail]
    rfl

theorem takeRest_later (lexer : Lexer) :
    (lexer.later count).takeRest = (lexer.takeRest.1.later count, lexer.takeRest.2.later count) := by
  unfold takeRest
  dsimp only [later]
  split <;> rfl

end Lexer

theorem MatchLine.decodeOffset_later (lexeme : Lexeme) :
    decodeOffset (lexeme.later count) = changed (Violation.later count) id (decodeOffset lexeme) := by
  have same : (lexeme.later count).token = lexeme.token := rfl
  rw [decodeOffset, decodeOffset, same]
  cases offset? lexeme.token.text <;> rfl

/-- A match line is read alike wherever it stands. -/
theorem MatchLine.read_later (line : Nat) (text : String) :
    read (line + count) text = changed (Violation.later count) id (read line text) := by
  have same : Lexer.ofLine text (line + count) = (Lexer.ofLine text line).later count := rfl
  unfold read
  rw [same, Lexer.expectAll_later]
  obtain ⟨_ | lexemes, after⟩ := (Lexer.ofLine text line).expectAll shape
  · rfl
  · rcases lexemes with _ | ⟨offset, _ | ⟨colon, _ | ⟨name, _ | ⟨second, _ | ⟨_, _⟩⟩⟩⟩⟩
    case cons.cons.cons.cons.nil =>
      have mapped : [offset, colon, name, second].map (Lexeme.later count) =
          [offset.later count, colon.later count, name.later count, second.later count] := rfl
      dsimp only [changed]
      rw [mapped]
      dsimp only
      rw [Lexer.takeRest_later, decodeOffset_later]
      cases decodeOffset offset <;> rfl
    all_goals rfl

/-! ### Reading headers -/

namespace Header

def Entries.later (list : Entries) : Entries :=
  ⟨list.groups.map (Group.later count), list.failure.map (Violation.later count),
    list.after.later count⟩

theorem entries_later (lexer : Lexer) :
    entries (lexer.later count) = (entries lexer).later count := by
  fun_induction entries lexer with
  | case1 lexer error after found =>
    rw [entries_eq, Lexer.nextUntil_later, found]
    rfl
  | case2 lexer group after found bracket =>
    rw [entries_eq, Lexer.nextUntil_later, found]
    exact if_pos bracket
  | case3 lexer group after found bracket comma _ inductionHypothesis =>
    rw [entries_eq, Lexer.nextUntil_later, found]
    dsimp only [changed]
    rw [show (group.later count).stop.kind = group.stop.kind from rfl, if_neg bracket,
      if_pos comma, inductionHypothesis]
    rfl
  | case4 lexer group after found bracket comma =>
    rw [entries_eq, Lexer.nextUntil_later, found]
    dsimp only [changed]
    rw [show (group.later count).stop.kind = group.stop.kind from rfl, if_neg bracket,
      if_neg comma]
    rfl

variable (group : Group)

theorem tag?_later : tag? (group.later count) = tag? group := by
  unfold tag? Group.first Group.later
  dsimp only
  rw [List.head?_map]
  cases group.body.head? <;> rfl

theorem first_later : (group.later count).first = group.first.later count := by
  unfold Group.first Group.later
  dsimp only
  rw [List.head?_map]
  cases group.body.head? <;> rfl

theorem isClosing_later : (group.later count).isClosing = group.isClosing := by
  unfold Group.isClosing Group.later
  dsimp only
  rw [List.isEmpty_map, Lexeme.kind_later]

theorem tags_later (groups : List Group) :
    tags (groups.map (Group.later count)) = tags groups := by
  rw [tags, List.filterMap_map]
  exact List.filterMap_congr fun group _ => tag?_later count group

theorem tagNotes_later (groups : List Group) :
    tagNotes (groups.map (Group.later count)) = (tagNotes groups).map (Note.later count) := by
  rw [tagNotes, List.filterMap_map, tagNotes, List.map_filterMap]
  refine List.filterMap_congr fun group _ => ?_
  dsimp only [Function.comp_apply]
  rw [isClosing_later, tag?_later, first_later]
  split <;> rfl

theorem tokenAt_later (position : Nat) :
    tokenAt (group.later count) position = (tokenAt group position).later count := by
  unfold tokenAt Group.later
  dsimp only
  rw [List.getElem?_map]
  cases group.body[position]? <;> rfl

theorem unexpected_later (expected : Expectation) (lexeme : Lexeme) :
    unexpected expected (lexeme.later count) = (unexpected expected lexeme).later count := by
  obtain ⟨token, span⟩ := lexeme
  cases token <;> rfl

theorem metadataValue_later (lexeme : Lexeme) :
    metadataValue (lexeme.later count) =
      changed (Violation.later count) id (metadataValue lexeme) := by
  obtain ⟨token, span⟩ := lexeme
  unfold metadataValue
  cases token with
  | string raw => rfl
  | number text =>
    dsimp only [Lexeme.later]
    cases integer? text <;> rfl
  | identifier text =>
    dsimp only [Lexeme.later]
    cases boolean? text <;> rfl
  | _ => rfl

theorem entry_later (identifier : String) :
    entry identifier (group.later count) =
      changed (Violation.later count) id (entry identifier group) := by
  unfold entry
  rw [tokenAt_later, tokenAt_later, Lexeme.kind_later, metadataValue_later, unexpected_later]
  by_cases equals : (tokenAt group 1).kind = .equals
  · rw [if_pos equals, if_pos equals]
    cases metadataValue (tokenAt group 2) <;> rfl
  · rw [if_neg equals, if_neg equals]
    rfl

theorem ignoredNotes_later (identifier : String) :
    ignoredNotes identifier (group.later count) =
      (ignoredNotes identifier group).map (Note.later count) := by
  unfold ignoredNotes Group.later
  dsimp only
  rw [← List.map_drop]
  cases group.body.drop 3 with
  | nil => rfl
  | cons first rest =>
    show [Note.ignoredTokens identifier ((first.later count).span.merge
      (((rest.map (Lexeme.later count)).getLast?.getD (first.later count)).span))] = _
    have last : (((rest.map (Lexeme.later count)).getLast?.getD (first.later count)).span) =
        (rest.getLast?.getD first).span.later count := by
      rw [List.getLast?_map]
      cases rest.getLast? <;> rfl
    rw [last]
    exact congrArg (fun span => [Note.ignoredTokens identifier span]) (Span.merge_later count _ _)

theorem metadata_later (groups : List Group) :
    metadata (groups.map (Group.later count)) = (metadata groups).later count := by
  induction groups with
  | nil => rfl
  | cons group groups inductionHypothesis =>
    rw [List.map_cons, metadata, metadata, isClosing_later, first_later, inductionHypothesis]
    by_cases closing : group.isClosing = true
    · rw [if_pos closing, if_pos closing]
    · rw [if_neg closing, if_neg closing]
      rw [show (group.first.later count).token = group.first.token from rfl]
      cases group.first.token with
      | identifier identifier =>
        dsimp only
        rw [entry_later, ignoredNotes_later]
        cases entry identifier group with
        | error violation => rfl
        | ok value =>
          dsimp only [changed, Reading.later, id]
          rw [List.map_append]
          cases (metadata groups).outcome <;> rfl
      | _ => rfl

theorem opening_later (lexer : Lexer) :
    opening (lexer.later count) =
      changed (Violation.later count) (fun opened => (opened.1, opened.2.later count))
        (opening lexer) := by
  unfold opening
  rw [Lexer.expect_later]
  obtain ⟨_ | name, after⟩ := lexer.expect .identifier
  · rfl
  · dsimp only [changed]
    rw [Lexer.expect_later]
    obtain ⟨_ | bracket, final⟩ := after.expect .leftBracket <;> rfl

theorem assemble_later (name : String) (tagGroups : List Group) (list : Entries) :
    assemble name (tagGroups.map (Group.later count)) (list.later count) =
      (assemble name tagGroups list).later count := by
  unfold assemble
  dsimp only [Entries.later]
  rw [metadata_later, tags_later]
  dsimp only [Reading.later]
  cases (metadata list.groups).outcome with
  | error violation => rfl
  | ok values =>
    cases list.failure with
    | some violation => rfl
    | none =>
      dsimp only [changed, Option.map_none, id]
      rw [List.map_append]
      rfl

theorem closing_later (name : String) (list : Entries) :
    closing name (list.later count) = (closing name list).later count := by
  unfold closing
  dsimp only [Entries.later]
  cases list.failure with
  | some violation => rfl
  | none =>
    dsimp only [Option.map_none]
    rw [Lexer.expect_later]
    obtain ⟨_ | bracket, after⟩ := list.after.expect .leftBracket
    · rfl
    · dsimp only [changed]
      rw [entries_later, assemble_later]

/-- A header line is read alike wherever it stands. -/
theorem read_later (line : Nat) (text : String) :
    read (line + count) text = (read line text).later count := by
  have same : Lexer.ofLine text (line + count) = (Lexer.ofLine text line).later count := rfl
  unfold read
  rw [same, opening_later]
  rcases opening (Lexer.ofLine text line) with violation | ⟨name, after⟩
  · rfl
  · dsimp only [changed]
    rw [entries_later, closing_later]
    dsimp only [Entries.later, Reading.later]
    rw [tagNotes_later, List.map_append]

end Header

/-! ### Reading lines -/

namespace Reader

variable (skipped : Nat)

/-- The reader that has counted more lines and more entries that were left out. -/
def later (reader : Reader) : Reader :=
  ⟨reader.progress, reader.lineNumber + count, reader.skipped + skipped⟩

def Step.later (step : Step) : Step :=
  ⟨step.reader.later count skipped, step.delivered, step.notes.map (Note.later count),
    step.violation.map (Violation.later count)⟩

def Passage.later (passage : Passage) : Passage :=
  ⟨passage.reader.later count skipped, passage.delivered,
    passage.stop.map fun stop => ⟨stop.line, stop.violation.later count⟩⟩

theorem feedMatch_later (reader : Reader) (line : String) :
    (reader.later count skipped).feedMatch line =
      (reader.feedMatch line).later count skipped := by
  unfold feedMatch later
  dsimp only
  cases reader.progress with
  | inRule rule =>
    dsimp only
    rw [MatchLine.read_later]
    cases MatchLine.read reader.lineNumber line <;> rfl
  | idle | failed => rfl

theorem feedHeader_later (reader : Reader) (line : String) :
    (reader.later count skipped).feedHeader line =
      (reader.feedHeader line).later count skipped := by
  unfold feedHeader later
  dsimp only
  rw [Header.read_later]
  dsimp only [Reading.later]
  rw [Note.skippedCount_later, Nat.add_right_comm]
  cases (Header.read reader.lineNumber line).outcome <;> rfl

/-- A reader that has counted more does with a line what it would have done before. -/
theorem feed_later (reader : Reader) (line : String) :
    (reader.later count skipped).feed line = (reader.feed line).later count skipped := by
  have counted : (⟨reader.progress, reader.lineNumber + count + 1, reader.skipped + skipped⟩ : Reader) =
      later count skipped { reader with lineNumber := reader.lineNumber + 1 } := by
    rw [later, Nat.add_right_comm]
  by_cases failed : reader.progress = .failed
  · have moved : (reader.later count skipped).progress = .failed := failed
    rw [feed_failed failed, feed_failed moved]
    rfl
  have active : (reader.later count skipped).progress ≠ .failed := failed
  rcases line_cases line with ⟨blank, -⟩ | ⟨isMatch, -⟩ | ⟨-, header⟩
  · have moved := feed_blank active blank
    rw [feed_blank failed blank, Step.later, ← counted]
    exact moved
  · have moved := feed_match active isMatch
    rw [feed_match failed isMatch, ← feedMatch_later, ← counted]
    exact moved
  · have moved := feed_header active header
    rw [feed_header failed header, ← feedHeader_later, ← counted]
    exact moved

theorem pass_later (reader : Reader) (lines : List String) :
    (reader.later count skipped).pass lines = (reader.pass lines).later count skipped := by
  induction lines generalizing reader with
  | nil => rfl
  | cons line lines inductionHypothesis =>
    rw [pass, pass, feed_later]
    dsimp only [Step.later]
    cases (reader.feed line).violation with
    | some violation => rfl
    | none =>
      dsimp only [Option.map_none]
      rw [inductionHypothesis]
      rfl

end Reader

end YaraReport
