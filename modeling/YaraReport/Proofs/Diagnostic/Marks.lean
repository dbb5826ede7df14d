/-
This file proves that reading a diagnostic character by character is cutting its
line at three marks: the first opening parenthesis, the first colon after it and
the first colon after that. The text before each mark is one part of the
diagnostic, and what follows the last one is the message. A line that lacks a
mark keeps the parts that it has and is its own message.

The invariant is that the buffer holds what was read of the present part
(`Draft.after_collected`), and each mark turns one part into the next.
-/

import YaraReport.Diagnostic.Draft
import YaraReport.Proofs.Text.Places
import YaraReport.Proofs.Text.Trimming

namespace YaraReport.Diagnostic

/-! ### Marks -/

/-- What stands before the first of a mark and what after it, if the mark stands at all. -/
def splitOnce? (mark : Char) : List Char → Option (List Char × List Char)
  | [] => none
  | character :: rest =>
    if character = mark then some ([], rest)
    else (splitOnce? mark rest).map fun parts => (character :: parts.1, parts.2)

/-- The texts before and after the first opening parenthesis. -/
def opened? (text : List Char) : Option (List Char × List Char) := splitOnce? '(' text

/-- Past the parenthesis, the texts before and after the next colon. -/
def numbered? (text : List Char) : Option (List Char × List Char) :=
  (opened? text).bind fun parts => splitOnce? ':' parts.2

/-- Past that colon, the texts before and after the next one. -/
def graded? (text : List Char) : Option (List Char × List Char) :=
  (numbered? text).bind fun parts => splitOnce? ':' parts.2

theorem not_mem_of_splitOnce? {mark : Char} {text : List Char}
    (uncut : splitOnce? mark text = none) :
    mark ∉ text := by
  induction text with
  | nil => exact List.not_mem_nil
  | cons character rest inductionHypothesis =>
    rw [splitOnce?] at uncut
    split at uncut
    · cases uncut
    · rename_i other
      rw [List.mem_cons, not_or]
      exact ⟨Ne.symm other, inductionHypothesis (Option.map_eq_none_iff.mp uncut)⟩

/-- A text is cut at the first of a mark. -/
theorem splitOnce?_append {mark : Char} {front : List Char} (outside : mark ∉ front)
    (back : List Char) : splitOnce? mark (front ++ mark :: back) = some (front, back) := by
  induction front with
  | nil => exact if_pos rfl
  | cons character front inductionHypothesis =>
    rw [List.mem_cons, not_or] at outside
    rw [List.cons_append, splitOnce?, if_neg (Ne.symm outside.1), inductionHypothesis outside.2,
      Option.map_some]

theorem splitOnce?_eq_some_iff {mark : Char} {text front back : List Char} :
    splitOnce? mark text = some (front, back) ↔ mark ∉ front ∧ text = front ++ mark :: back := by
  refine ⟨fun cut => ?_, fun ⟨outside, whole⟩ => whole ▸ splitOnce?_append outside back⟩
  induction text generalizing front with
  | nil => cases cut
  | cons character rest inductionHypothesis =>
    rw [splitOnce?] at cut
    split at cut
    · rename_i same
      cases cut
      exact ⟨List.not_mem_nil, by rw [same, List.nil_append]⟩
    · rename_i other
      obtain ⟨parts, later, rfl, rfl⟩ : ∃ parts, splitOnce? mark rest = some parts ∧
          character :: parts.1 = front ∧ parts.2 = back := by
        simpa only [Option.map_eq_some_iff, Prod.mk.injEq] using cut
      obtain ⟨outside, whole⟩ := inductionHypothesis later
      rw [List.mem_cons, not_or, List.cons_append, ← whole]
      exact ⟨⟨Ne.symm other, outside⟩, rfl⟩

/-! ### Drafts -/

/-- The mark that ends a part. Nothing ends the message. -/
def Part.mark? : Part → Option Char
  | .fileName => some '('
  | .lineNumber => some ':'
  | .severity => some ':'
  | .message => none

/-- What a part keeps of its text. Only a line number drops something, closing parentheses. -/
def Part.kept (part : Part) (text : List Char) : List Char :=
  match part with
  | .lineNumber => text.filter (· ≠ ')')
  | .fileName | .severity | .message => text

theorem Part.kept_nil (part : Part) : part.kept [] = [] := by
  cases part <;> rfl

theorem Part.kept_cons (part : Part) (character : Char) (rest : List Char) :
    part.kept (character :: rest) =
      if part = .lineNumber ∧ character = ')' then part.kept rest
      else character :: part.kept rest := by
  cases part with
  | lineNumber =>
    by_cases closing : character = ')'
    · simp [kept, closing]
    · simp [kept, closing]
  | fileName | severity | message => rfl

namespace Draft

/-- What a draft has become after a text. -/
def after (draft : Draft) (text : List Char) : Draft := (draft.feedAll text).1

theorem after_cons (draft : Draft) (character : Char) (rest : List Char) :
    draft.after (character :: rest) = (draft.feed character).1.after rest := rfl

theorem after_append (draft : Draft) (front back : List Char) :
    draft.after (front ++ back) = (draft.after front).after back := by
  induction front generalizing draft with
  | nil => rfl
  | cons character front inductionHypothesis => exact inductionHypothesis (draft.feed character).1

def collectAll (draft : Draft) (text : List Char) : Draft :=
  { draft with buffer := draft.buffer ++ String.ofList text }

theorem collectAll_nil (draft : Draft) : draft.collectAll [] = draft := by
  rw [collectAll, String.ofList_nil, String.append_empty]

theorem collectAll_cons (draft : Draft) (character : Char) (rest : List Char) :
    draft.collectAll (character :: rest) = (draft.collect character).collectAll rest := by
  simp only [collectAll, collect, String.push_eq_append, String.append_assoc, String.ofList_cons]

/-- A character that does not end a part joins the buffer, or is dropped from a line
number. -/
theorem feed_unmarked {draft : Draft} {character : Char}
    (unmarked : draft.part.mark? ≠ some character) :
    (draft.feed character).1 =
      if draft.part = .lineNumber ∧ character = ')' then draft else draft.collect character := by
  have other {mark : Char} (ends : draft.part.mark? = some mark) : character ≠ mark := by
    rintro rfl
    exact unmarked ends
  obtain ⟨part, buffer, fileName, line, severity⟩ := draft
  cases part with
  | fileName => exact congrArg Prod.fst (if_neg (other rfl))
  | lineNumber =>
    by_cases closing : character = ')'
    · rw [if_pos ⟨rfl, closing⟩]
      exact congrArg Prod.fst (if_pos closing)
    · rw [if_neg fun both => closing both.2]
      exact congrArg Prod.fst ((if_neg closing).trans (if_neg (other rfl)))
  | severity => exact congrArg Prod.fst (if_neg (other rfl))
  | message => rfl

/-- While a part is read, the buffer grows by what the part keeps of the text. -/
theorem after_collected (draft : Draft) (text : List Char)
    (unmarked : ∀ character ∈ text, draft.part.mark? ≠ some character) :
    draft.after text = draft.collectAll (draft.part.kept text) := by
  induction text generalizing draft with
  | nil =>
    rw [Part.kept_nil, collectAll_nil]
    rfl
  | cons character rest inductionHypothesis =>
    obtain ⟨first, others⟩ := List.forall_mem_cons.mp unmarked
    rw [after_cons, feed_unmarked first, Part.kept_cons]
    split
    · exact inductionHypothesis draft others
    · rw [collectAll_cons]
      exact inductionHypothesis (draft.collect character) others

/-- A text without the mark of a part is read as that part. -/
theorem after_uncut {draft : Draft} {mark : Char} {text : List Char}
    (ends : draft.part.mark? = some mark) (uncut : splitOnce? mark text = none) :
    draft.after text = draft.collectAll (draft.part.kept text) := by
  refine after_collected draft text fun character member same => ?_
  obtain rfl : mark = character := Option.some.inj (ends.symm.trans same)
  exact not_mem_of_splitOnce? uncut member

/-- A text with the mark of a part is read as that part, the mark and the rest. -/
theorem after_cut {draft : Draft} {mark : Char} {text front back : List Char}
    (ends : draft.part.mark? = some mark) (cut : splitOnce? mark text = some (front, back)) :
    draft.after text = ((draft.collectAll (draft.part.kept front)).feed mark).1.after back := by
  obtain ⟨outside, rfl⟩ := splitOnce?_eq_some_iff.mp cut
  have former := after_collected draft front fun character member same =>
    outside (Option.some.inj (ends.symm.trans same) ▸ member)
  rw [after_append, former, after_cons]

theorem text_collectAll (draft : Draft) (empty : draft.buffer = "") (text : List Char) :
    (draft.collectAll text).text = Text.trim text := by
  rw [Draft.text, collectAll, empty, String.empty_append, String.toList_ofList]

/-! ### Drafts past a mark -/

/-- A draft past the parenthesis. -/
def opened (file : List Char) : Draft :=
  ⟨.lineNumber, "", some (String.ofList (Text.trim file)), none, none⟩

/-- A draft past the first colon. -/
def numbered (file digits : List Char) : Draft :=
  { opened file with
    part := .severity, line := lineNumber? (Text.trim (digits.filter (· ≠ ')'))) }

/-- A draft past the second colon. -/
def graded (file digits level : List Char) : Draft :=
  { numbered file digits with
    part := .message, severity := some (severityOf (Text.trim level)) }

theorem after_start {text file rest : List Char} (cut : splitOnce? '(' text = some (file, rest)) :
    start.after text = (opened file).after rest := by
  rw [after_cut rfl cut, opened, ← text_collectAll start rfl file]
  rfl

theorem after_opened {file text digits rest : List Char}
    (cut : splitOnce? ':' text = some (digits, rest)) :
    (opened file).after text = (numbered file digits).after rest := by
  rw [after_cut rfl cut, numbered, ← text_collectAll (opened file) rfl]
  rfl

theorem after_numbered {file digits text level rest : List Char}
    (cut : splitOnce? ':' text = some (level, rest)) :
    (numbered file digits).after text = (graded file digits level).after rest := by
  rw [after_cut rfl cut, graded, ← text_collectAll (numbered file digits) rfl level]
  rfl

theorem after_graded (file digits level text : List Char) :
    (graded file digits level).after text = (graded file digits level).collectAll text :=
  after_collected _ text fun _ _ ends => by cases ends

/-! ### The severity of a message -/

/-- A draft that knows its severity once it reads the message. -/
def KnowsSeverity (draft : Draft) : Prop :=
  draft.part = .message → draft.severity.isSome = true

theorem knowsSeverity_start : KnowsSeverity start :=
  fun here => by cases here

/-- Only the mark after the severity leads to the message, and it leaves the severity. -/
theorem KnowsSeverity.feed {draft : Draft} (known : KnowsSeverity draft) (character : Char) :
    KnowsSeverity (draft.feed character).1 := by
  by_cases ends : draft.part.mark? = some character
  · obtain ⟨part, buffer, fileName, line, severity⟩ := draft
    cases part with
    | fileName | lineNumber =>
      obtain rfl := Option.some.inj ends
      exact fun here => by cases here
    | severity =>
      obtain rfl := Option.some.inj ends
      exact fun _ => rfl
    | message => cases ends
  · rw [feed_unmarked ends]
    split
    · exact known
    · exact known

theorem KnowsSeverity.after {draft : Draft} (known : KnowsSeverity draft) (text : List Char) :
    KnowsSeverity (draft.after text) := by
  induction text generalizing draft with
  | nil => exact known
  | cons character rest inductionHypothesis => exact inductionHypothesis (known.feed character)

end Draft

open Draft

/-! ### What the parts denote -/

/-- A text that begins with `err`, in upper or lower case. -/
def BeginsWithErr (text : List Char) : Prop :=
  ∃ first second third rest, text = first :: second :: third :: rest ∧
    first ∈ ['e', 'E'] ∧ second ∈ ['r', 'R'] ∧ third ∈ ['r', 'R']

/-- Only a capital and its lower case have that lower case. -/
theorem eq_toLower_iff {lower capital : Char}
    (range : 'A'.val ≤ capital.val ∧ capital.val ≤ 'Z'.val) (pair : capital.toLower = lower)
    (character : Char) : lower = character.toLower ↔ character ∈ [lower, capital] := by
  rw [← pair]
  unfold Char.toLower
  rw [dif_pos range]
  split
  · simp only [List.mem_cons, List.not_mem_nil, or_false, Char.ext_iff, UInt32.add_left_inj] at *
    grind
  · simp only [List.mem_cons, List.not_mem_nil, or_false, Char.ext_iff] at *
    grind

theorem isPrefixOf_map_toLower_iff (text : List Char) :
    ['e', 'r', 'r'].isPrefixOf (text.map Char.toLower) = true ↔ BeginsWithErr text := by
  have front (letter : Char) : 'e' = letter.toLower ↔ letter ∈ ['e', 'E'] :=
    eq_toLower_iff (by decide) (by decide) letter
  have later (letter : Char) : 'r' = letter.toLower ↔ letter ∈ ['r', 'R'] :=
    eq_toLower_iff (by decide) (by decide) letter
  rw [List.isPrefixOf_iff_prefix, BeginsWithErr]
  rcases text with _ | ⟨first, _ | ⟨second, _ | ⟨third, rest⟩⟩⟩
  · simp
  · simp
  · simp
  · simp only [List.map_cons, List.cons_prefix_cons, List.nil_prefix, and_true, front, later]
    simp

theorem severityOf_eq_error_iff (text : List Char) :
    severityOf text = .error ↔ BeginsWithErr text := by
  rw [← isPrefixOf_map_toLower_iff, severityOf]
  split <;> simp [*]

theorem severityOf_eq_warning_iff (text : List Char) :
    severityOf text = .warning ↔ ¬BeginsWithErr text := by
  rw [← isPrefixOf_map_toLower_iff, severityOf]
  split <;> simp [*]

theorem lineNumber?_eq_some_iff (text : List Char) (number : UInt32) :
    lineNumber? text = some number ↔ Text.PlusDecimal text number.toNat := by
  rw [← Text.plusDecimal?_eq_some_iff, lineNumber?]
  split
  · rename_i value known
    rw [known, Option.some.injEq]
    split
    · rename_i small
      rw [Option.some.injEq, ← UInt32.toNat_inj, UInt32.toNat_ofNat_of_lt' small]
    · rename_i large
      refine iff_of_false nofun ?_
      rintro rfl
      exact large number.toNat_lt
  · rename_i unknown
    rw [unknown]
    exact iff_of_false nofun nofun

/-! ### Diagnostics of lines -/

theorem ofLine_eq (line : String) : ofLine line = (start.after line.toList).finish line := rfl

/-- The diagnostic of a line without a parenthesis. -/
theorem ofLine_of_uncut {line : String} (unopened : splitOnce? '(' line.toList = none) :
    ofLine line = ⟨none, none, .unknown, Text.trimmed line⟩ := by
  rw [ofLine_eq, after_uncut rfl unopened]
  rfl

section Cut

variable {line : String} {file afterFile digits afterDigits level message : List Char}
  (first : splitOnce? '(' line.toList = some (file, afterFile))
include first

/-- The diagnostic of a line with a parenthesis and no colon after it. -/
theorem ofLine_of_cut (unnumbered : splitOnce? ':' afterFile = none) :
    ofLine line = ⟨some (String.ofList (Text.trim file)), none, .unknown, Text.trimmed line⟩ := by
  rw [ofLine_eq, after_start first, after_uncut rfl unnumbered]
  rfl

variable (second : splitOnce? ':' afterFile = some (digits, afterDigits))
include second

/-- The diagnostic of a line with a parenthesis and one colon after it. -/
theorem ofLine_of_cut_twice (ungraded : splitOnce? ':' afterDigits = none) :
    ofLine line = ⟨some (String.ofList (Text.trim file)),
      lineNumber? (Text.trim (digits.filter (· ≠ ')'))), .unknown, Text.trimmed line⟩ := by
  rw [ofLine_eq, after_start first, after_opened second, after_uncut rfl ungraded]
  rfl

/-- The diagnostic of a line with all marks. -/
theorem ofLine_of_cut_thrice (third : splitOnce? ':' afterDigits = some (level, message)) :
    ofLine line = ⟨some (String.ofList (Text.trim file)),
      lineNumber? (Text.trim (digits.filter (· ≠ ')'))), severityOf (Text.trim level),
      String.ofList (Text.trim message)⟩ := by
  rw [ofLine_eq, after_start first, after_opened second, after_numbered third, after_graded,
    ← text_collectAll (graded file digits level) rfl message]
  rfl

end Cut

/-- The diagnostic that a text denotes by its marks. -/
structure Denotes (text : List Char) (diagnostic : Diagnostic) : Prop where
  fileName : diagnostic.fileName =
    (opened? text).map fun parts => String.ofList (Text.trim parts.1)
  line : ∀ number : UInt32, diagnostic.line = some number ↔ ∃ digits rest,
    numbered? text = some (digits, rest) ∧
      Text.PlusDecimal (Text.trim (digits.filter (· ≠ ')'))) number.toNat
  complete : ∀ level message, graded? text = some (level, message) →
    (diagnostic.severity = .error ↔ BeginsWithErr (Text.trim level)) ∧
      (diagnostic.severity = .warning ↔ ¬BeginsWithErr (Text.trim level)) ∧
      diagnostic.message = String.ofList (Text.trim message)
  incomplete : graded? text = none →
    diagnostic.severity = .unknown ∧ diagnostic.message = String.ofList (Text.trim text)

/-- A text denotes at most one diagnostic. -/
theorem Denotes.unique {text : List Char} {diagnostic other : Diagnostic}
    (denotes : Denotes text diagnostic) (again : Denotes text other) : diagnostic = other := by
  have fileName : diagnostic.fileName = other.fileName :=
    denotes.fileName.trans again.fileName.symm
  have line : diagnostic.line = other.line :=
    Option.ext fun number => (denotes.line number).trans (again.line number).symm
  have rest : diagnostic.severity = other.severity ∧ diagnostic.message = other.message := by
    cases marks : graded? text with
    | none =>
      have left := denotes.incomplete marks
      have right := again.incomplete marks
      exact ⟨left.1.trans right.1.symm, left.2.trans right.2.symm⟩
    | some parts =>
      obtain ⟨error, warning, message⟩ := denotes.complete parts.1 parts.2 marks
      obtain ⟨sameError, sameWarning, sameMessage⟩ := again.complete parts.1 parts.2 marks
      refine ⟨?_, message.trans sameMessage.symm⟩
      by_cases begins : BeginsWithErr (Text.trim parts.1)
      · exact (error.mpr begins).trans (sameError.mpr begins).symm
      · exact (warning.mpr begins).trans (sameWarning.mpr begins).symm
  obtain ⟨file, number, severity, message⟩ := diagnostic
  obtain ⟨rfl, rfl⟩ := rest
  rw [Diagnostic.mk.injEq]
  exact ⟨fileName, line, rfl, rfl⟩

/-- A line denotes the diagnostic that is read from it. -/
theorem denotes_ofLine (line : String) : Denotes line.toList (ofLine line) := by
  cases first : splitOnce? '(' line.toList with
  | none =>
    rw [ofLine_of_uncut first]
    constructor <;> simp [opened?, numbered?, graded?, first, Text.trimmed]
  | some parts =>
    obtain ⟨file, afterFile⟩ := parts
    cases second : splitOnce? ':' afterFile with
    | none =>
      rw [ofLine_of_cut first second]
      constructor <;> simp [opened?, numbered?, graded?, first, second, Text.trimmed]
    | some parts =>
      obtain ⟨digits, afterDigits⟩ := parts
      cases third : splitOnce? ':' afterDigits with
      | none =>
        rw [ofLine_of_cut_twice first second third]
        constructor <;>
          simp [opened?, numbered?, graded?, first, second, third, Text.trimmed,
            lineNumber?_eq_some_iff]
      | some parts =>
        obtain ⟨level, message⟩ := parts
        rw [ofLine_of_cut_thrice first second third]
        constructor <;>
          simp [opened?, numbered?, graded?, first, second, third, lineNumber?_eq_some_iff,
            severityOf_eq_error_iff, severityOf_eq_warning_iff]

/-- Reading a line character by character finds the one diagnostic that the line denotes by its
marks, and a draft that reached the message never lacks its severity. -/
theorem reads_by_marks :
    (∀ (line : String) (diagnostic : Diagnostic),
      ofLine line = diagnostic ↔ Denotes line.toList diagnostic) ∧
    ∀ text : List Char, (start.after text).part = .message →
      (start.after text).severity.isSome = true := by
  constructor
  · intro line diagnostic
    constructor
    · rintro rfl
      exact denotes_ofLine line
    · exact (denotes_ofLine line).unique
  · exact knowsSeverity_start.after

/-- Parentheses and colons in every part, and a draft that has just reached its message. -/
theorem reads_by_marks_punctuated :
    Denotes " a) b ( +7) ) : ERRor (x): y: (z) ".toList
        ⟨some "a) b", some 7, .error, "y: (z)"⟩ ∧
      (start.after "a(1): e:".toList).part = .message ∧
      (start.after "a(1): e:".toList).severity.isSome = true := by
  have reached : (start.after "a(1): e:".toList).part = .message := by decide
  exact ⟨(reads_by_marks.1 _ _).mp (by decide), reached, reads_by_marks.2 _ reached⟩

end YaraReport.Diagnostic
