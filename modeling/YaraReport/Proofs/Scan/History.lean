/-
This file proves what a run of the reader comes to. The header lines of a
capture cut it into sections: a header line and the match lines up to the next
one. As long as nothing breaks the format, the reader has delivered the rules of
all sections but the last and is in the middle of that last one; the next header
line, or the end of the run, delivers it. The first line that breaks the format
is named by its violation, and nothing happens after it.

One invariant carries the run: what was delivered and what is in progress are
together the rules of the sections read so far.
-/

import Mathlib.Data.List.Forall2
import YaraReport.Proofs.Scan.Feeding
import YaraReport.Proofs.Scan.Placement

namespace YaraReport.Reader

/-! ### Sections -/

/-- A line with its number. -/
abbrev Numbered := String × Nat

/-- The match lines before the next header line. -/
def matchesAhead (lines : List Numbered) : List Numbered :=
  (lines.takeWhile fun line => !isHeader line.1).filter fun line => isMatch line.1

/-- A header line and the match lines between it and the next header line. -/
structure Section where
  header : Numbered
  matchLines : List Numbered

/-- The sections that the header lines begin. -/
def sections : List Numbered → List Section
  | [] => []
  | line :: lines =>
    if isHeader line.1 then ⟨line, matchesAhead lines⟩ :: sections lines else sections lines

/-- Match lines that are all accepted add their matches to a rule, in order. -/
def Extends (lines : List Numbered) (rule extended : Rule) : Prop :=
  ∃ found, List.Forall₂ (fun line entry => MatchLine.read line.2 line.1 = .ok entry) lines found ∧
    extended = found.foldl (fun rule entry => rule.pushMatch entry.1 entry.2) rule

/-- A section denotes the rule of its header with the matches of its match lines. -/
def Section.Denotes (part : Section) (rule : Rule) : Prop :=
  ∃ bare, (Header.read part.header.2 part.header.1).outcome = .ok bare ∧
    Extends part.matchLines bare rule

theorem matchesAhead_cons (line : Numbered) (lines : List Numbered) :
    matchesAhead (line :: lines) =
      if isHeader line.1 then []
      else if isMatch line.1 then line :: matchesAhead lines else matchesAhead lines := by
  unfold matchesAhead
  cases header : isHeader line.1 with
  | true =>
    rw [List.takeWhile_cons_of_neg, if_pos rfl, List.filter_nil]
    rw [header]
    exact Bool.false_ne_true
  | false =>
    rw [List.takeWhile_cons_of_pos (by rw [header]; rfl), if_neg Bool.false_ne_true,
      List.filter_cons]

theorem Extends.refl (rule : Rule) : Extends [] rule rule := ⟨[], .nil, rfl⟩

/-! ### Runs -/

/-- The reader after lines. -/
def after (reader : Reader) (lines : List String) : Reader :=
  lines.foldl (fun reader line => (reader.feed line).reader) reader

/-- The rules that are delivered while lines are read, in order. -/
def history (reader : Reader) (lines : List String) : List Rule :=
  (reader.steps lines).flatMap Step.delivered

/-- None of the lines breaks the format. -/
def Accepts (reader : Reader) (lines : List String) : Prop :=
  ∀ step ∈ reader.steps lines, step.violation = none

theorem steps_append (reader : Reader) (first second : List String) :
    reader.steps (first ++ second) = reader.steps first ++ (reader.after first).steps second := by
  induction first generalizing reader with
  | nil => rfl
  | cons line lines inductionHypothesis =>
    rw [List.cons_append, steps, inductionHypothesis]
    rfl

theorem history_append (reader : Reader) (first second : List String) :
    reader.history (first ++ second) =
      reader.history first ++ (reader.after first).history second := by
  rw [history, steps_append, List.flatMap_append]
  rfl

theorem after_append (reader : Reader) (first second : List String) :
    reader.after (first ++ second) = (reader.after first).after second := List.foldl_append

/-! ### Lines that break the format -/

variable {reader : Reader} {line : String}

/-- A line that breaks the format ends the run, and its violation is placed in it. -/
theorem feed_rejected (active : reader.progress ≠ .failed) {violation : Violation}
    (rejected : (reader.feed line).violation = some violation) :
    (reader.feed line).reader.progress = .failed ∧
      (reader.feed line).reader.lineNumber = reader.lineNumber + 1 ∧
      violation.In (reader.lineNumber + 1) line.toList := by
  rcases line_cases line with ⟨blank, -, -⟩ | ⟨isMatch, -⟩ | ⟨-, header⟩
  · rw [feed_blank active blank] at rejected
    cases rejected
  · rw [feed_match active isMatch] at rejected ⊢
    unfold feedMatch at rejected ⊢
    split at rejected
    · rename_i rule progress
      dsimp only at progress
      rw [progress]
      dsimp only
      split at rejected
      · cases rejected
      · rename_i read
        cases rejected
        rw [read]
        exact ⟨rfl, rfl, MatchLine.read_violation read⟩
    · rename_i progress
      cases rejected
      dsimp only at progress
      rw [progress]
      exact ⟨rfl, rfl, rfl⟩
    · rename_i progress
      exact absurd progress active
  · rw [feed_header active header] at rejected ⊢
    unfold feedHeader at rejected ⊢
    dsimp only at rejected ⊢
    split at rejected
    · cases rejected
    · rename_i outcome
      cases rejected
      exact ⟨rfl, rfl, Header.read_violation outcome⟩

/-! ### What a run keeps -/

theorem pending_dropLast (progress : Progress) : progress.pending.dropLast = [] := by
  cases progress <;> rfl

theorem pending_getLast? (progress : Progress) :
    progress.pending.getLast?.toList = progress.pending := by
  cases progress <;> rfl

/-- The invariant of a run over accepted lines. The rule that is in progress at first goes on with
the match lines ahead, and every section makes one more rule. All of them but the last are
delivered, and the last is in progress. -/
structure Accounts (reader : Reader) (lines : List String) (opened rules : List Rule) : Prop where
  goesOn : List.Forall₂ (Extends (matchesAhead (lines.zipIdx (reader.lineNumber + 1))))
    reader.progress.pending opened
  denotes : List.Forall₂ Section.Denotes (sections (lines.zipIdx (reader.lineNumber + 1))) rules
  delivered : reader.history lines = (opened ++ rules).dropLast
  last : (reader.after lines).progress.pending = (opened ++ rules).getLast?.toList
  active : (reader.after lines).progress ≠ .failed
  counted : (reader.after lines).lineNumber = reader.lineNumber + lines.length

theorem history_cons (reader : Reader) (line : String) (lines : List String) :
    reader.history (line :: lines) =
      (reader.feed line).delivered ++ (reader.feed line).reader.history lines := rfl

theorem after_cons (reader : Reader) (line : String) (lines : List String) :
    reader.after (line :: lines) = (reader.feed line).reader.after lines := rfl

theorem Accepts.head {lines : List String} (accepted : reader.Accepts (line :: lines)) :
    (reader.feed line).violation = none := accepted _ List.mem_cons_self

theorem Accepts.tail {lines : List String} (accepted : reader.Accepts (line :: lines)) :
    (reader.feed line).reader.Accepts lines :=
  fun step member => accepted step (List.mem_cons_of_mem _ member)

theorem add_length_cons (number : Nat) (line : String) (lines : List String) :
    number + (line :: lines).length = number + 1 + lines.length := by
  rw [List.length_cons, Nat.add_assoc, Nat.add_comm 1]

namespace Accounts

variable {lines : List String} {opened rules : List Rule}

theorem nil (active : reader.progress ≠ .failed) :
    Accounts reader [] reader.progress.pending [] := by
  refine ⟨List.forall₂_same.mpr fun rule _ => .refl rule, .nil, ?_, ?_, active, rfl⟩
  · rw [List.append_nil, pending_dropLast]
    rfl
  · rw [List.append_nil, pending_getLast?]
    rfl

theorem cons_blank (active : reader.progress ≠ .failed) (blank : Text.isBlankLine line = true)
    (notMatch : isMatch line = false) (notHeader : isHeader line = false)
    (later : Accounts (reader.feed line).reader lines opened rules) :
    Accounts reader (line :: lines) opened rules := by
  obtain ⟨goesOn, denotes, delivered, last, stays, counted⟩ := later
  have silent := feed_delivered active line
  rw [notHeader] at silent
  rw [feed_blank active blank] at goesOn denotes counted
  refine ⟨?_, ?_, ?_, last, stays, ?_⟩
  · rw [List.zipIdx_cons, matchesAhead_cons, notHeader, notMatch]
    exact goesOn
  · rw [List.zipIdx_cons, sections, notHeader]
    exact denotes
  · rw [history_cons, silent]
    exact delivered
  · rw [after_cons, feed_blank active blank, add_length_cons]
    exact counted

theorem cons_match (active : reader.progress ≠ .failed) (isMatch : isMatch line = true)
    (notHeader : isHeader line = false) (first : (reader.feed line).violation = none)
    (later : Accounts (reader.feed line).reader lines opened rules) :
    Accounts reader (line :: lines) opened rules := by
  obtain ⟨goesOn, denotes, delivered, last, stays, counted⟩ := later
  obtain ⟨rule, identifier, occurrence, progress, read, next⟩ :=
    feed_match_accepted active isMatch first
  have silent := feed_delivered active line
  rw [notHeader] at silent
  rw [next] at goesOn denotes counted
  obtain ⟨extended, tail, ⟨found, reads, rfl⟩, nothing, rfl⟩ :=
    List.forall₂_cons_left_iff.mp goesOn
  obtain rfl := List.forall₂_nil_left_iff.mp nothing
  refine ⟨?_, ?_, ?_, last, stays, ?_⟩
  · rw [List.zipIdx_cons, matchesAhead_cons, notHeader, isMatch, progress]
    exact .cons ⟨(identifier, occurrence) :: found, .cons read reads, rfl⟩ .nil
  · rw [List.zipIdx_cons, sections, notHeader]
    exact denotes
  · rw [history_cons, silent]
    exact delivered
  · rw [after_cons, next, add_length_cons]
    exact counted

/-- A header line opens a rule; the one in progress before it has all its matches. -/
theorem cons_header (active : reader.progress ≠ .failed) (header : isHeader line = true)
    (first : (reader.feed line).violation = none)
    (later : Accounts (reader.feed line).reader lines opened rules) :
    Accounts reader (line :: lines) reader.progress.pending (opened ++ rules) := by
  obtain ⟨goesOn, denotes, delivered, last, stays, counted⟩ := later
  obtain ⟨rule, outcome, progress, number⟩ := feed_header_accepted active header first
  rw [number] at goesOn denotes counted
  rw [progress] at goesOn
  obtain ⟨extended, tail, makes, nothing, rfl⟩ := List.forall₂_cons_left_iff.mp goesOn
  obtain rfl := List.forall₂_nil_left_iff.mp nothing
  rw [List.singleton_append] at delivered last ⊢
  refine ⟨?_, ?_, ?_, ?_, stays, ?_⟩
  · rw [List.zipIdx_cons, matchesAhead_cons, header]
    exact List.forall₂_same.mpr fun rule _ => .refl rule
  · rw [List.zipIdx_cons, sections, header]
    exact .cons ⟨rule, outcome, makes⟩ denotes
  · rw [history_cons, feed_delivered active, header, delivered,
      List.dropLast_append_of_ne_nil (List.cons_ne_nil _ _)]
    rfl
  · rw [after_cons, last, List.getLast?_append_of_ne_nil _ (List.cons_ne_nil _ _)]
  · rw [after_cons, counted, add_length_cons]

end Accounts

/-- A line that is accepted leaves a reader that has not failed. -/
theorem feed_active (active : reader.progress ≠ .failed)
    (accepted : (reader.feed line).violation = none) :
    (reader.feed line).reader.progress ≠ .failed := by
  rcases line_cases line with ⟨blank, -⟩ | ⟨isMatch, -⟩ | ⟨-, header⟩
  · rw [feed_blank active blank]
    exact active
  · obtain ⟨_, _, _, _, _, next⟩ := feed_match_accepted active isMatch accepted
    rw [next]
    exact Progress.noConfusion
  · obtain ⟨_, _, progress, _⟩ := feed_header_accepted active header accepted
    rw [progress]
    exact Progress.noConfusion

/-- Every run over accepted lines keeps the invariant. -/
theorem exists_accounts (active : reader.progress ≠ .failed) {lines : List String}
    (accepted : reader.Accepts lines) : ∃ opened rules, Accounts reader lines opened rules := by
  induction lines generalizing reader with
  | nil => exact ⟨_, _, .nil active⟩
  | cons line lines inductionHypothesis =>
    obtain ⟨opened, rules, later⟩ :=
      inductionHypothesis (feed_active active accepted.head) accepted.tail
    rcases line_cases line with ⟨blank, notMatch, notHeader⟩ | ⟨isMatch, notHeader⟩ | ⟨-, header⟩
    · exact ⟨_, _, later.cons_blank active blank notMatch notHeader⟩
    · exact ⟨_, _, later.cons_match active isMatch notHeader accepted.head⟩
    · exact ⟨_, _, later.cons_header active header accepted.head⟩

/-! ### After a failure -/

theorem steps_failed {reader : Reader} (failed : reader.progress = .failed) {step : Step}
    {lines : List String} (member : step ∈ reader.steps lines) :
    step = ⟨reader, [], [], some .aborted⟩ := by
  induction lines with
  | nil => cases member
  | cons line lines inductionHypothesis =>
    rw [steps, feed_failed failed] at member
    rcases List.mem_cons.mp member with rfl | member
    · rfl
    · exact inductionHypothesis member

theorem after_failed {reader : Reader} (failed : reader.progress = .failed) (lines : List String) :
    reader.after lines = reader := by
  induction lines with
  | nil => rfl
  | cons line lines inductionHypothesis =>
    have first : (reader.feed line).reader = reader := by rw [feed_failed failed]
    show (reader.feed line).reader.after lines = reader
    rw [first, inductionHypothesis]

theorem history_failed {reader : Reader} (failed : reader.progress = .failed)
    (lines : List String) : reader.history lines = [] := by
  refine List.flatMap_eq_nil_iff.mpr fun step member => ?_
  rw [steps_failed failed member]

theorem finish_failed {reader : Reader} (failed : reader.progress = .failed) :
    reader.finish = .error .aborted := by
  rw [finish, failed]

theorem finish_active {reader : Reader} (active : reader.progress ≠ .failed) :
    reader.finish = .ok reader.progress.pending := by
  unfold finish
  split
  · rename_i failed
    exact absurd failed active
  · rfl

/-! ### Whole runs -/

/-- A run either accepts every line or has a first line that it rejects. -/
theorem accepts_or_rejects (reader : Reader) (lines : List String) :
    reader.Accepts lines ∨ ∃ before line later violation, lines = before ++ line :: later ∧
      reader.Accepts before ∧ ((reader.after before).feed line).violation = some violation := by
  induction lines generalizing reader with
  | nil => exact .inl fun step member => by cases member
  | cons line lines inductionHypothesis =>
    cases first : (reader.feed line).violation with
    | some violation =>
      exact .inr ⟨[], line, lines, violation, rfl, (fun step member => by cases member), first⟩
    | none =>
      have extend {before : List String} (accepted : (reader.feed line).reader.Accepts before) :
          reader.Accepts (line :: before) := by
        intro step member
        rcases List.mem_cons.mp member with rfl | member
        · exact first
        · exact accepted step member
      rcases inductionHypothesis (reader.feed line).reader with
        accepted | ⟨before, rejected, later, violation, rfl, accepted, violates⟩
      · exact .inl (extend accepted)
      · exact .inr
          ⟨line :: before, rejected, later, violation, rfl, extend accepted, violates⟩

/-- Reading up to the first violation is reading everything where there is none. -/
theorem pass_of_accepts {reader : Reader} {lines : List String}
    (accepted : reader.Accepts lines) :
    reader.pass lines = ⟨reader.after lines, reader.history lines, none⟩ := by
  induction lines generalizing reader with
  | nil => rfl
  | cons line lines inductionHypothesis =>
    rw [pass, accepted.head]
    dsimp only
    rw [inductionHypothesis accepted.tail]
    rfl

theorem pass_of_rejects {reader : Reader} {before : List String} {line : String}
    {violation : Violation} (accepted : reader.Accepts before)
    (violates : ((reader.after before).feed line).violation = some violation)
    (later : List String) :
    reader.pass (before ++ line :: later) =
      ⟨reader.after (before ++ [line]), reader.history (before ++ [line]),
        some ⟨line, violation⟩⟩ := by
  induction before generalizing reader with
  | nil =>
    have violates : (reader.feed line).violation = some violation := violates
    have delivered : reader.history [line] = (reader.feed line).delivered := List.append_nil _
    rw [List.nil_append, pass, violates, List.nil_append, delivered]
    rfl
  | cons former before inductionHypothesis =>
    rw [List.cons_append, pass, accepted.head]
    dsimp only
    rw [inductionHypothesis accepted.tail violates]
    rfl

/-- What a run over accepted lines comes to, when its sections denote rules. -/
structure Delivers (lines : List String) (rules : List Rule) : Prop where
  /-- There is one rule for each header line, with the matches before the next one. -/
  denotes : List.Forall₂ Section.Denotes (sections (lines.zipIdx 1)) rules
  /-- All rules but the last are delivered, in order. -/
  delivered : start.history lines = rules.dropLast
  /-- The next line delivers the last rule if it is a header line, and nothing otherwise. -/
  handedOver (line : String) : ((start.after lines).feed line).delivered =
    if isHeader line then rules.getLast?.toList else []
  inRule : (start.after lines).inRule = true ↔ ∃ line ∈ lines, isHeader line = true
  finishes : (start.after lines).finish = .ok rules.getLast?.toList

/-- What a run comes to whose first rejected line stands between others. -/
structure Breaks (before : List String) (line : String) (later : List String)
    (violation : Violation) (rules : List Rule) : Prop where
  violates : ((start.after before).feed line).violation = some violation
  fresh : violation ≠ .aborted
  placed : violation.line? = some (before ++ [line]).length
  counted : (start.after (before ++ [line])).lineNumber = (before ++ [line]).length
  /-- Later lines are refused; they deliver nothing and leave the reader as it is. -/
  refused (step : Step) (member : step ∈ (start.after (before ++ [line])).steps later) :
    step = ⟨start.after (before ++ [line]), [], [], some .aborted⟩
  outside : (start.after (before ++ line :: later)).inRule = false
  finishes : (start.after (before ++ line :: later)).finish = .error .aborted
  delivered : start.history (before ++ line :: later) =
    if isHeader line then rules else rules.dropLast

theorem sections_eq_nil_iff {lines : List Numbered} :
    sections lines = [] ↔ ∀ line ∈ lines, isHeader line.1 = false := by
  induction lines with
  | nil => exact iff_of_true rfl fun line member => by cases member
  | cons line lines inductionHypothesis =>
    rw [sections, List.forall_mem_cons]
    cases header : isHeader line.1 with
    | true => exact iff_of_false (List.cons_ne_nil _ _) fun ⟨other, _⟩ => Bool.noConfusion other
    | false => exact inductionHypothesis.trans (and_iff_right rfl).symm

theorem ne_nil_of_sections {lines : List String} {rules : List Rule}
    (denotes : List.Forall₂ Section.Denotes (sections (lines.zipIdx 1)) rules) :
    rules ≠ [] ↔ ∃ line ∈ lines, isHeader line = true := by
  have same : rules = [] ↔ sections (lines.zipIdx 1) = [] := by
    rw [← List.length_eq_zero_iff, ← denotes.length_eq, List.length_eq_zero_iff]
  have all : (∀ line ∈ lines.zipIdx 1, isHeader line.1 = false) ↔
      ∀ line ∈ lines, isHeader line = false := by
    rw [← List.forall_mem_map (f := Prod.fst) (P := fun line => isHeader line = false),
      List.zipIdx_map_fst]
  rw [ne_eq, same, sections_eq_nil_iff, all]
  simp only [not_forall, Bool.not_eq_false, exists_prop]

theorem delivers_of_accepts {lines : List String} (accepted : start.Accepts lines) :
    (start.after lines).progress ≠ .failed ∧
      (start.after lines).lineNumber = lines.length ∧ ∃ rules, Delivers lines rules := by
  have idle : start.progress ≠ .failed := Progress.noConfusion
  obtain ⟨opened, rules, goesOn, denotes, delivered, last, active, count⟩ :=
    exists_accounts idle accepted
  obtain rfl := List.forall₂_nil_left_iff.mp goesOn
  rw [List.nil_append] at delivered last
  refine ⟨active, count.trans (Nat.zero_add _), rules, denotes, delivered, ?_, ?_, ?_⟩
  · intro line
    rw [feed_delivered active, last]
  · rw [← ne_nil_of_sections denotes, inRule, last]
    rcases List.eq_nil_or_concat rules with rfl | ⟨front, rule, rfl⟩
    · exact iff_of_false Bool.false_ne_true fun other => other rfl
    · rw [List.concat_eq_append, List.getLast?_concat]
      exact iff_of_true rfl (List.append_ne_nil_of_right_ne_nil _ (List.cons_ne_nil _ _))
  · rw [finish_active active, last]

/-- The first line that is rejected ends the run, and its violation names it by its number. -/
theorem rejected_line {before : List String} {line : String} {violation : Violation}
    (accepted : start.Accepts before)
    (violates : ((start.after before).feed line).violation = some violation) :
    (start.after (before ++ [line])).progress = .failed ∧
      (start.after (before ++ [line])).lineNumber = before.length + 1 ∧
      violation.In (before.length + 1) line.toList := by
  obtain ⟨active, count, -⟩ := delivers_of_accepts accepted
  obtain ⟨failed, number, place⟩ := feed_rejected active violates
  have through : start.after (before ++ [line]) = ((start.after before).feed line).reader :=
    after_append _ _ _
  rw [count] at number place
  rw [through]
  exact ⟨failed, number, place⟩

/-- Every run delivers the rules of its header lines in order, each when the next header line
arrives or at the end, up to the first line that breaks the format. That line is named by its
number, and nothing happens after it. -/
theorem run_law (lines : List String) :
    (start.Accepts lines ∧ ∃ rules, Delivers lines rules) ∨
      ∃ before line later violation rules, lines = before ++ line :: later ∧
        start.Accepts before ∧ Delivers before rules ∧
        Breaks before line later violation rules := by
  rcases accepts_or_rejects start lines with
    accepted | ⟨before, line, later, violation, rfl, accepted, violates⟩
  · exact .inl ⟨accepted, (delivers_of_accepts accepted).2.2⟩
  · obtain ⟨-, -, rules, delivers⟩ := delivers_of_accepts accepted
    obtain ⟨failed, number, place⟩ := rejected_line accepted violates
    have total : before.length + 1 = (before ++ [line]).length := by
      rw [List.length_append, List.length_singleton]
    have final : start.after (before ++ line :: later) = start.after (before ++ [line]) := by
      rw [List.append_cons, after_append, after_failed failed]
    have history : start.history (before ++ line :: later) =
        start.history before ++ ((start.after before).feed line).delivered := by
      rw [List.append_cons, history_append, history_failed failed, List.append_nil, history_append]
      exact congrArg _ (List.append_nil _)
    refine .inr ⟨before, line, later, violation, rules, rfl, accepted, delivers, violates, ?_, ?_,
      ?_, fun step member => steps_failed failed member, ?_, ?_, ?_⟩
    · rintro rfl
      exact place
    · rw [place.line?_eq, total]
    · rw [number, total]
    · rw [final, inRule, failed]
      rfl
    · rw [final, finish_failed failed]
    · rw [history, delivers.delivered, delivers.handedOver]
      split
      · rcases List.eq_nil_or_concat rules with rfl | ⟨front, rule, rfl⟩
        · rfl
        · rw [List.concat_eq_append, List.getLast?_concat, List.dropLast_concat]
          rfl
      · exact List.append_nil _

end YaraReport.Reader

namespace YaraReport.Capture

open Reader (start)

variable {lines before : List String} {line : String} {violation : Violation}

theorem ofLines_of_accepts (accepted : start.Accepts lines) :
    ofLines lines =
      .ok ⟨start.history lines ++ (start.after lines).progress.pending,
        (start.after lines).skipped⟩ := by
  rw [ofLines, Reader.pass_of_accepts accepted]
  dsimp only
  rw [Reader.finish_active (Reader.delivers_of_accepts accepted).1]

theorem ofLines_of_rejects (accepted : start.Accepts before)
    (violates : ((start.after before).feed line).violation = some violation)
    (later : List String) : ofLines (before ++ line :: later) = .error violation := by
  rw [ofLines, Reader.pass_of_rejects accepted violates]

end YaraReport.Capture
