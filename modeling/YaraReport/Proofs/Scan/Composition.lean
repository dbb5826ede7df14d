/-
This file proves that captures can be put together before a header line, and
that blank lines may stand anywhere. Where a header line follows, it does not
matter that a rule was in progress: the header delivers it, even if it is broken
itself, and all that follows is read as it would be read alone, only some lines
later.

Reading lines alone and reading them behind others are compared in two steps.
The rule in progress is taken away first (`result_of_opens`), and what the reader
has counted is taken off afterwards (`pass_later`).
-/

import YaraReport.Proofs.Scan.History
import YaraReport.Proofs.Scan.Shifting

namespace YaraReport

namespace Violation

theorem later_zero (violation : Violation) : violation.later 0 = violation := by
  cases violation with
  | lex error => cases error; rfl
  | _ => rfl

theorem later_later (violation : Violation) (first second : Nat) :
    (violation.later first).later second = violation.later (first + second) := by
  have line (number : Nat) : number + first + second = number + (first + second) :=
    Nat.add_assoc _ _ _
  cases violation with
  | lex error =>
    cases error
    simp only [later, LexError.later, Span.later, line]
  | _ => simp only [later, Span.later, line]

/-- A violation after lines are put in at a position: it stands later if it stood behind it. -/
def behind (position count : Nat) (violation : Violation) : Violation :=
  if violation.line?.any (position < ·) then violation.later count else violation

theorem behind_of_lt {position number : Nat} (count : Nat) {violation : Violation}
    (placed : violation.line? = some number) (after : position < number) :
    violation.behind position count = violation.later count := by
  rw [behind, placed]
  exact if_pos (decide_eq_true after)

theorem behind_of_le {position number : Nat} (count : Nat) {violation : Violation}
    (placed : violation.line? = some number) (before : number ≤ position) :
    violation.behind position count = violation := by
  rw [behind, placed]
  exact if_neg (by rw [Option.any_some, decide_eq_true_eq]; exact Nat.not_lt.mpr before)

end Violation

namespace Reader

/-! ### Results -/

/-- What reading lines to their end comes to. -/
structure Result where
  /-- The rules delivered, in order. -/
  delivered : List Rule
  /-- The number of entries left out. -/
  skipped : Nat
  /-- What breaks the format, if anything does. -/
  failure : Option Violation
  deriving DecidableEq

/-- Reads lines one after the other up to the first that breaks the format, or else to the end. -/
def result (lines : List String) : Result :=
  let passage := start.pass lines
  match passage.stop with
  | some stop => ⟨passage.delivered, passage.reader.skipped, some stop.violation⟩
  | none =>
    match passage.reader.finish with
    | .ok last => ⟨passage.delivered ++ last, passage.reader.skipped, none⟩
    | .error violation => ⟨passage.delivered, passage.reader.skipped, some violation⟩

/-- What a passage comes to if no line follows it. -/
def Passage.result (passage : Passage) : Result :=
  ⟨passage.delivered ++ passage.reader.progress.pending, passage.reader.skipped,
    passage.stop.map Stop.violation⟩

theorem Passage.result_later (passage : Passage) (count skipped : Nat) :
    (passage.later count skipped).result =
      ⟨passage.result.delivered, passage.result.skipped + skipped,
        passage.result.failure.map (Violation.later count)⟩ := by
  obtain ⟨reader, delivered, _ | stop⟩ := passage <;> rfl

variable {reader : Reader} {lines : List String} {line : String}

/-! ### Passages -/

theorem pass_of_stop_none (active : reader.progress ≠ .failed)
    (through : (reader.pass lines).stop = none) :
    (reader.pass lines).reader.progress ≠ .failed ∧
      (reader.pass lines).reader.lineNumber = reader.lineNumber + lines.length := by
  rcases accepts_or_rejects reader lines with
    accepted | ⟨before, line, later, violation, rfl, accepted, violates⟩
  · obtain ⟨opened, rules, accounts⟩ := exists_accounts active accepted
    rw [pass_of_accepts accepted]
    exact ⟨accounts.active, accounts.counted⟩
  · rw [pass_of_rejects accepted violates] at through
    cases through

/-- A passage that stops leaves a failed reader, and the violation names one of its lines. -/
theorem pass_of_stop_some (active : reader.progress ≠ .failed) {stop : Stop}
    (stopped : (reader.pass lines).stop = some stop) :
    (reader.pass lines).reader.progress = .failed ∧
      ∃ number, stop.violation.line? = some number ∧ reader.lineNumber < number ∧
        number ≤ reader.lineNumber + lines.length := by
  rcases accepts_or_rejects reader lines with
    accepted | ⟨before, line, later, violation, rfl, accepted, violates⟩
  · rw [pass_of_accepts accepted] at stopped
    cases stopped
  · obtain ⟨opened, rules, accounts⟩ := exists_accounts active accepted
    obtain ⟨failed, -, place⟩ := feed_rejected accounts.active violates
    rw [pass_of_rejects accepted violates] at stopped ⊢
    cases stopped
    refine ⟨?_, _, place.line?_eq, ?_, ?_⟩
    · rw [after_append]
      exact failed
    · rw [accounts.counted]
      omega
    · rw [accounts.counted, List.length_append, List.length_cons]
      omega

theorem result_pass_cons (accepted : (reader.feed line).violation = none) (lines : List String) :
    (reader.pass (line :: lines)).result =
      { ((reader.feed line).reader.pass lines).result with
        delivered := (reader.feed line).delivered ++
          ((reader.feed line).reader.pass lines).result.delivered } := by
  rw [pass, accepted]
  dsimp only [Passage.result]
  rw [List.append_assoc]

theorem result_pass_append (second : List String) (through : (reader.pass lines).stop = none) :
    (reader.pass (lines ++ second)).result =
      { ((reader.pass lines).reader.pass second).result with
        delivered := (reader.pass lines).delivered ++
          ((reader.pass lines).reader.pass second).result.delivered } := by
  induction lines generalizing reader with
  | nil => rfl
  | cons line lines inductionHypothesis =>
    rw [pass] at through ⊢
    cases violates : (reader.feed line).violation with
    | some violation =>
      rw [violates] at through
      cases through
    | none =>
      rw [violates] at through
      rw [List.cons_append, result_pass_cons violates, inductionHypothesis through]
      dsimp only
      rw [List.append_assoc]

theorem pass_append_of_stop_some (second : List String) {stop : Stop}
    (stopped : (reader.pass lines).stop = some stop) :
    reader.pass (lines ++ second) = reader.pass lines := by
  induction lines generalizing reader with
  | nil => cases stopped
  | cons line lines inductionHypothesis =>
    rw [pass] at stopped ⊢
    rw [List.cons_append, pass]
    cases violates : (reader.feed line).violation with
    | some violation => rfl
    | none =>
      rw [violates] at stopped
      dsimp only at stopped ⊢
      rw [inductionHypothesis stopped]

/-- The end of the lines delivers the rule in progress, and fails only where a line did. -/
theorem result_eq (lines : List String) : result lines = (start.pass lines).result := by
  have idle : start.progress ≠ .failed := Progress.noConfusion
  rw [result, Passage.result]
  cases stopped : (start.pass lines).stop with
  | some stop =>
    rw [(pass_of_stop_some idle stopped).1]
    exact congrArg (fun rules => Result.mk rules _ _) (List.append_nil _).symm
  | none =>
    rw [finish_active (pass_of_stop_none idle stopped).1]
    rfl

theorem pass_of_failure_none (accepted : (result lines).failure = none) :
    (start.pass lines).stop = none ∧ (start.pass lines).reader.progress ≠ .failed ∧
      (start.pass lines).reader.lineNumber = lines.length := by
  have idle : start.progress ≠ .failed := Progress.noConfusion
  rw [result_eq] at accepted
  have through : (start.pass lines).stop = none := Option.map_eq_none_iff.mp accepted
  obtain ⟨active, counted⟩ := pass_of_stop_none idle through
  exact ⟨through, active, counted.trans (Nat.zero_add _)⟩

/-! ### Lines behind others -/

/-- The first line that is not blank, if there is one, is no match line. -/
def Opens (lines : List String) : Prop :=
  ∀ line ∈ lines.find? (fun line => !Text.isBlankLine line), MatchLine.isMarked line = false

instance (lines : List String) : Decidable (Opens lines) :=
  inferInstanceAs (Decidable (∀ line ∈ lines.find? fun line => !Text.isBlankLine line,
    MatchLine.isMarked line = false))

theorem Opens.of_blank (opens : Opens (line :: lines)) (blank : Text.isBlankLine line = true) :
    Opens lines := by
  rw [Opens, List.find?_cons_of_neg] at opens
  · exact opens
  · rw [blank]
    exact Bool.false_ne_true

theorem Opens.not_match (opens : Opens (line :: lines)) : isMatch line = false := by
  rw [isMatch]
  cases blank : Text.isBlankLine line with
  | true => rfl
  | false =>
    rw [Opens, List.find?_cons_of_pos (by rw [blank]; rfl)] at opens
    exact opens line rfl

/-- The reader without the rule in progress. -/
def rested (reader : Reader) : Reader := { reader with progress := .idle }

/-- The rule in progress has no part in how a header line is read: it is only delivered. -/
theorem feed_header_rested (active : reader.progress ≠ .failed) (header : isHeader line = true) :
    reader.feed line = { reader.rested.feed line with delivered := reader.progress.pending } ∧
      (reader.rested.feed line).delivered = [] := by
  have idle : reader.rested.progress ≠ .failed := Progress.noConfusion
  rw [feed_header active header, feed_header idle header]
  unfold feedHeader rested
  dsimp only
  cases (Header.read (reader.lineNumber + 1) line).outcome <;> exact ⟨rfl, rfl⟩

/-- Before a header line it does not matter that a rule is in progress: it is delivered first, and
all else is read as without it. -/
theorem result_of_opens (active : reader.progress ≠ .failed) (opens : Opens lines) :
    (reader.pass lines).result =
      { (reader.rested.pass lines).result with
        delivered := reader.progress.pending ++ (reader.rested.pass lines).result.delivered } := by
  induction lines generalizing reader with
  | nil => exact congrArg (fun rules => Result.mk rules _ _) (List.append_nil _).symm
  | cons line lines inductionHypothesis =>
    rcases line_cases line with ⟨blank, -⟩ | ⟨isMatch, -⟩ | ⟨-, header⟩
    · have idle : reader.rested.progress ≠ .failed := Progress.noConfusion
      have counted : (reader.later 1 0).progress ≠ .failed := active
      rw [pass, pass, feed_blank active blank, feed_blank idle blank]
      exact inductionHypothesis counted (opens.of_blank blank)
    · rw [opens.not_match] at isMatch
      cases isMatch
    · obtain ⟨same, silent⟩ := feed_header_rested active header
      cases violates : (reader.rested.feed line).violation with
      | some violation =>
        rw [pass, pass, same, violates]
        dsimp only [Passage.result]
        rw [silent, List.nil_append]
      | none =>
        have accepted : (reader.feed line).violation = none := by rw [same, violates]
        rw [result_pass_cons accepted, result_pass_cons violates, same, silent]
        rfl

/-! ### Blank lines -/

theorem pass_blanks (active : reader.progress ≠ .failed) {blanks : List String}
    (blank : ∀ line ∈ blanks, Text.isBlankLine line = true) (lines : List String) :
    reader.pass (blanks ++ lines) = (reader.pass lines).later blanks.length 0 := by
  rw [← pass_later]
  induction blanks generalizing reader with
  | nil => rfl
  | cons line blanks inductionHypothesis =>
    rw [List.forall_mem_cons] at blank
    have counted : (reader.later 1 0).progress ≠ .failed := active
    have moved : (reader.later 1 0).later blanks.length 0 =
        reader.later (line :: blanks).length 0 := by
      simp only [later, List.length_cons, Nat.add_zero, Nat.add_assoc, Nat.add_comm 1]
    rw [List.cons_append, pass, feed_blank active blank.1, ← moved]
    exact inductionHypothesis counted blank.2

/-- The lines that are not blank. -/
def visible (lines : List String) : List String := lines.filter fun line => !Text.isBlankLine line

/-- Without its blank lines a capture is read alike, only that its lines stand earlier. -/
theorem result_of_visible (active : reader.progress ≠ .failed) (lines : List String) :
    ∃ count, (reader.pass lines).result =
      { (reader.pass (visible lines)).result with
        failure := (reader.pass (visible lines)).result.failure.map (Violation.later count) } := by
  induction lines generalizing reader with
  | nil => exact ⟨0, rfl⟩
  | cons line lines inductionHypothesis =>
    cases blank : Text.isBlankLine line with
    | true =>
      have dropped : visible (line :: lines) = visible lines := by
        rw [visible, List.filter_cons_of_neg, visible]
        rw [blank]
        exact Bool.false_ne_true
      obtain ⟨count, same⟩ := inductionHypothesis active
      have behind : reader.pass (line :: lines) = (reader.pass lines).later 1 0 :=
        pass_blanks active (List.forall_mem_singleton.mpr blank) lines
      refine ⟨count + 1, ?_⟩
      rw [behind, Passage.result_later, same, dropped, Option.map_map]
      simp only [Violation.later_later, Function.comp_def, Nat.add_zero]
    | false =>
      have kept : visible (line :: lines) = line :: visible lines :=
        List.filter_cons_of_pos (by rw [blank]; rfl)
      cases violates : (reader.feed line).violation with
      | some violation =>
        refine ⟨0, ?_⟩
        rw [kept, pass, pass, violates]
        dsimp only [Passage.result, Option.map_some]
        rw [Violation.later_zero]
      | none =>
        obtain ⟨count, same⟩ := inductionHypothesis (feed_active active violates)
        refine ⟨count, ?_⟩
        rw [kept, result_pass_cons violates, result_pass_cons violates, same]

/-! ### Captures put together -/

variable {first second : List String}

/-- Lines behind others that are accepted are read as if they stood alone, only later. -/
theorem result_append (opens : Opens second) (accepted : (result first).failure = none) :
    result (first ++ second) =
      ⟨(result first).delivered ++ (result second).delivered,
        (result first).skipped + (result second).skipped,
        (result second).failure.map (Violation.later first.length)⟩ := by
  obtain ⟨through, active, counted⟩ := pass_of_failure_none accepted
  have rested : (start.pass first).reader.rested =
      start.later first.length (start.pass first).reader.skipped := by
    rw [Reader.rested, counted, later]
    simp only [start, Nat.zero_add]
  rw [result_eq, result_eq, result_eq, result_pass_append second through,
    result_of_opens active opens, rested, pass_later, Passage.result_later]
  simp only [Passage.result, List.append_assoc, Nat.add_comm]

/-- After a line that breaks the format nothing matters. -/
theorem result_append_of_failure (second : List String) {violation : Violation}
    (failed : (result first).failure = some violation) :
    result (first ++ second) = result first := by
  rw [result_eq] at failed
  obtain ⟨stop, stopped, -⟩ := Option.map_eq_some_iff.mp failed
  rw [result_eq, result_eq, pass_append_of_stop_some second stopped]

/-- Blank lines that are put in only move what stands after them. -/
theorem result_insert (before later : List String) {blanks : List String}
    (blank : ∀ line ∈ blanks, Text.isBlankLine line = true) :
    result (before ++ blanks ++ later) =
      { result (before ++ later) with
        failure := (result (before ++ later)).failure.map
          (Violation.behind before.length blanks.length) } := by
  have idle : start.progress ≠ .failed := Progress.noConfusion
  rw [List.append_assoc]
  cases failed : (result before).failure with
  | some violation =>
    rw [result_append_of_failure _ failed, result_append_of_failure _ failed]
    rw [result_eq] at failed ⊢
    obtain ⟨stop, stopped, rfl⟩ := Option.map_eq_some_iff.mp failed
    obtain ⟨-, number, placed, -, within⟩ := pass_of_stop_some idle stopped
    have early : number ≤ before.length := Nat.le_trans within (Nat.le_of_eq (Nat.zero_add _))
    rw [failed, Option.map_some, Violation.behind_of_le _ placed early, ← failed]
  | none =>
    obtain ⟨through, active, counted⟩ := pass_of_failure_none failed
    rw [result_eq, result_eq, result_pass_append _ through, result_pass_append _ through,
      pass_blanks active blank, Passage.result_later]
    dsimp only
    congr 1
    cases stopped : ((start.pass before).reader.pass later).stop with
    | none => rw [Passage.result, stopped]; rfl
    | some stop =>
      obtain ⟨-, number, placed, after, -⟩ := pass_of_stop_some active stopped
      rw [counted] at after
      rw [Passage.result, stopped, Option.map_some, Option.map_some, Option.map_some,
        Violation.behind_of_lt _ placed after]

/-- Captures can be put together before a line that is no match line: if the first is accepted the
second is read as it would be alone, only later, and if the first fails the second does not matter.
Blank lines change nothing but where a violation stands. -/
theorem captures_compose :
    (∀ first second, Opens second → (result first).failure = none →
      result (first ++ second) =
        ⟨(result first).delivered ++ (result second).delivered,
          (result first).skipped + (result second).skipped,
          (result second).failure.map (Violation.later first.length)⟩) ∧
    (∀ first second violation, (result first).failure = some violation →
      result (first ++ second) = result first) ∧
    (∀ before blanks later, (∀ line ∈ blanks, Text.isBlankLine line = true) →
      result (before ++ blanks ++ later) =
        { result (before ++ later) with
          failure := (result (before ++ later)).failure.map
            (Violation.behind before.length blanks.length) }) ∧
    (∀ lines, ∃ count, result lines =
      { result (visible lines) with
        failure := (result (visible lines)).failure.map (Violation.later count) }) := by
  have idle : start.progress ≠ .failed := Progress.noConfusion
  refine ⟨fun first second => result_append, fun first second violation =>
    result_append_of_failure second, fun before blanks later => result_insert before later,
    fun lines => ?_⟩
  rw [result_eq, result_eq]
  exact result_of_visible idle lines

/-- A rule with a match is in progress when a broken header line follows. -/
theorem captures_compose_broken_header :
    (Opens ["  ", "b [] [x"] ∧ (result ["a [x] []", "0x1:$s: v"]).failure = none ∧
      result ["a [x] []", "0x1:$s: v", "  ", "b [] [x"] =
        ⟨[⟨"a", ["x"], [], [⟨"$s", [⟨1, "v"⟩]⟩]⟩], 0,
          some (.unexpectedEnd .separator ⟨4, 8, 7, 7⟩)⟩) ∧
    ((result ["0x1:$s: v"]).failure = some (.orphanMatch 1) ∧
      result ["0x1:$s: v", "a [x] []"] = result ["0x1:$s: v"]) ∧
    (∀ line ∈ ["", " \t"], Text.isBlankLine line = true) ∧
      result ["a [x] []", "", " \t", "b [] [x"] =
        ⟨[⟨"a", ["x"], [], []⟩], 0, some (.unexpectedEnd .separator ⟨4, 8, 7, 7⟩)⟩ := by
  have opens : Opens ["  ", "b [] [x"] := by decide
  have accepted : (result ["a [x] []", "0x1:$s: v"]).failure = none := by decide +kernel
  have failed : (result ["0x1:$s: v"]).failure = some (.orphanMatch 1) := by decide +kernel
  have blank : ∀ line ∈ ["", " \t"], Text.isBlankLine line = true := by decide
  obtain ⟨append, keep, insert, -⟩ := captures_compose
  refine ⟨⟨opens, accepted, (append _ _ opens accepted).trans ?_⟩,
    ⟨failed, keep _ ["a [x] []"] _ failed⟩, blank,
    (insert ["a [x] []"] _ ["b [] [x"] blank).trans ?_⟩
  · decide +kernel
  · decide +kernel

end Reader

end YaraReport
