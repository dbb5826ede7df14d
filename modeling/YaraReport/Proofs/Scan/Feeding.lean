/-
This file says what one line does to a reader. A line is blank, a match line or
a header line, and each of the three goes to its own part of the reader; only a
header line delivers a rule, and only a failed reader takes no line.

The main statements are `feed_delivered`, `feed_match_accepted` and
`feed_header_accepted`: what a line that is accepted leaves behind.
-/

import YaraReport.Scan.Reader

namespace YaraReport.Reader

/-! ### The kinds of line -/

/-- Whether a line is read as a match line. -/
def isMatch (line : String) : Bool := !Text.isBlankLine line && MatchLine.isMarked line

/-- Whether a line is read as a rule header. -/
def isHeader (line : String) : Bool := !Text.isBlankLine line && !MatchLine.isMarked line

/-- A line is blank, a match line or a header line. -/
theorem line_cases (line : String) :
    Text.isBlankLine line = true ∧ isMatch line = false ∧ isHeader line = false ∨
      isMatch line = true ∧ isHeader line = false ∨ isMatch line = false ∧ isHeader line = true := by
  unfold isMatch isHeader
  cases Text.isBlankLine line <;> cases MatchLine.isMarked line <;> decide

theorem isHeader_eq_true {line : String} (visible : Text.isBlankLine line = false)
    (unmarked : MatchLine.isMarked line = false) : isHeader line = true := by
  rw [isHeader, visible, unmarked]
  rfl

/-! ### One line -/

variable {reader : Reader} {line : String}

theorem feed_failed (failed : reader.progress = .failed) (line : String) :
    reader.feed line = ⟨reader, [], [], some .aborted⟩ := by
  rw [feed, if_pos failed]

theorem feed_blank (active : reader.progress ≠ .failed) (blank : Text.isBlankLine line = true) :
    reader.feed line = ⟨{ reader with lineNumber := reader.lineNumber + 1 }, [], [], none⟩ := by
  rw [feed, if_neg active, if_pos blank]

theorem feed_match (active : reader.progress ≠ .failed) (isMatch : isMatch line = true) :
    reader.feed line =
      feedMatch { reader with lineNumber := reader.lineNumber + 1 } line := by
  rw [Reader.isMatch, Bool.and_eq_true, Bool.not_eq_true'] at isMatch
  rw [feed, if_neg active, isMatch.1, isMatch.2]
  rfl

theorem feed_header (active : reader.progress ≠ .failed) (isHeader : isHeader line = true) :
    reader.feed line =
      feedHeader { reader with lineNumber := reader.lineNumber + 1 } line := by
  rw [Reader.isHeader, Bool.and_eq_true, Bool.not_eq_true', Bool.not_eq_true'] at isHeader
  rw [feed, if_neg active, isHeader.1, isHeader.2]
  rfl

/-- Only a header line delivers, and it delivers the rule that was in progress. -/
theorem feed_delivered (active : reader.progress ≠ .failed) (line : String) :
    (reader.feed line).delivered = if isHeader line then reader.progress.pending else [] := by
  rcases line_cases line with ⟨blank, -, header⟩ | ⟨isMatch, header⟩ | ⟨-, header⟩
  · rw [feed_blank active blank, header]
    rfl
  · rw [feed_match active isMatch, header]
    unfold feedMatch
    split
    · split <;> rfl
    · rfl
    · rfl
  · rw [feed_header active header, header]
    unfold feedHeader
    dsimp only
    split <;> rfl

/-- A match line that is accepted adds a match to the rule in progress. -/
theorem feed_match_accepted (active : reader.progress ≠ .failed) (isMatch : isMatch line = true)
    (accepted : (reader.feed line).violation = none) :
    ∃ rule identifier occurrence, reader.progress = .inRule rule ∧
      MatchLine.read (reader.lineNumber + 1) line = .ok (identifier, occurrence) ∧
      (reader.feed line).reader = ⟨.inRule (rule.pushMatch identifier occurrence),
        reader.lineNumber + 1, reader.skipped⟩ := by
  rw [feed_match active isMatch] at accepted ⊢
  unfold feedMatch at accepted ⊢
  split at accepted
  · rename_i rule progress
    split at accepted
    · rename_i identifier occurrence read
      exact ⟨rule, identifier, occurrence, progress, read, rfl⟩
    · cases accepted
  · cases accepted
  · cases accepted

/-- A header line that is accepted begins its rule. -/
theorem feed_header_accepted (active : reader.progress ≠ .failed)
    (isHeader : isHeader line = true) (accepted : (reader.feed line).violation = none) :
    ∃ rule, (Header.read (reader.lineNumber + 1) line).outcome = .ok rule ∧
      (reader.feed line).reader.progress = .inRule rule ∧
      (reader.feed line).reader.lineNumber = reader.lineNumber + 1 := by
  rw [feed_header active isHeader] at accepted ⊢
  unfold feedHeader at accepted ⊢
  dsimp only at accepted ⊢
  split at accepted
  · rename_i rule outcome
    rw [outcome]
    exact ⟨rule, rfl, rfl, rfl⟩
  · cases accepted

end YaraReport.Reader
