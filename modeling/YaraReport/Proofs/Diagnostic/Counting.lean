/-
This file proves what reading diagnostics line by line adds up to. Each line that is not
blank is delivered as one diagnostic, and a tally counts the errors and the warnings among
those delivered so far (`tally_feed` for one line, `feedAll_eq` for all). So tallies of
parts add up to the tally of the whole, and since a blank line would be neither an error
nor a warning, lines can be counted in place of diagnostics (`number_ofLines`).
-/

import YaraReport.Diagnostic.Tally
import YaraReport.Proofs.Diagnostic.Marks

namespace YaraReport.Diagnostic

/-! ### Diagnostics of lines -/

/-- The diagnostics of the lines that are not blank, in order. -/
def ofLines (lines : List String) : List Diagnostic :=
  (lines.filter fun line => !Text.isBlankLine line).map ofLine

/-- How many diagnostics are of a severity. -/
def number (severity : Severity) (diagnostics : List Diagnostic) : Nat :=
  diagnostics.countP fun diagnostic => diagnostic.severity = severity

theorem ofLines_cons (line : String) (lines : List String) :
    ofLines (line :: lines) = ofLines [line] ++ ofLines lines := by
  simp only [ofLines, ← List.map_append, ← List.filter_append, List.singleton_append]

theorem ofLines_append (first second : List String) :
    ofLines (first ++ second) = ofLines first ++ ofLines second := by
  simp [ofLines]

theorem number_append (severity : Severity) (first second : List Diagnostic) :
    number severity (first ++ second) = number severity first + number severity second :=
  List.countP_append

/-- A blank line has none of the marks of a diagnostic. -/
theorem severity_ofLine_of_blank {line : String} (blank : Text.isBlankLine line = true) :
    (ofLine line).severity = .unknown := by
  cases first : splitOnce? '(' line.toList with
  | none => rw [ofLine_of_uncut first]
  | some parts =>
    obtain ⟨-, whole⟩ := splitOnce?_eq_some_iff.mp first
    have mark : '(' ∈ line.toList := by simp [whole]
    exact absurd (List.all_eq_true.mp blank _ mark) (by decide)

/-- Counting the diagnostics that are errors, or warnings, is counting the lines that are. -/
theorem number_ofLines {severity : Severity} (known : severity ≠ .unknown) (lines : List String) :
    number severity (ofLines lines) =
      lines.countP fun line => (ofLine line).severity = severity := by
  rw [number, ofLines, List.countP_map, List.countP_filter]
  refine List.countP_congr fun line _ => ?_
  by_cases blank : Text.isBlankLine line = true
  · simp [severity_ofLine_of_blank blank, known.symm]
  · simp [blank]

namespace Tally

/-! ### Counting -/

/-- The tally of some diagnostics. -/
def ofDiagnostics (diagnostics : List Diagnostic) : Tally :=
  ⟨number .error diagnostics, number .warning diagnostics⟩

instance : Add Tally :=
  ⟨fun first second => ⟨first.errors + second.errors, first.warnings + second.warnings⟩⟩

variable (tally : Tally)

theorem add_def (first second : Tally) :
    first + second = ⟨first.errors + second.errors, first.warnings + second.warnings⟩ := rfl

theorem zero_add : zero + tally = tally := by simp [add_def, zero]

theorem add_assoc (first second third : Tally) :
    first + second + third = first + (second + third) := by
  simp [add_def, Nat.add_assoc]

theorem add_nothing : tally + ofDiagnostics [] = tally := rfl

theorem ofDiagnostics_append (first second : List Diagnostic) :
    ofDiagnostics (first ++ second) = ofDiagnostics first + ofDiagnostics second := by
  simp [ofDiagnostics, number_append, add_def]

theorem count_severity (diagnostic : Diagnostic) :
    tally.count diagnostic.severity = tally + ofDiagnostics [diagnostic] := by
  cases severity : diagnostic.severity <;>
    simp [count, add_def, ofDiagnostics, number, severity]

/-! ### Lines -/

theorem delivered_feed (line : String) : (tally.feed line).delivered = ofLines [line] := by
  unfold feed
  split <;> simp_all [ofLines, ofLine]

/-- A line adds to the tally what it delivers. -/
theorem tally_feed (line : String) :
    (tally.feed line).tally = tally + ofDiagnostics (ofLines [line]) := by
  rw [← tally.delivered_feed line]
  unfold feed
  split
  · exact tally.add_nothing.symm
  · exact tally.count_severity _

/-- Lines deliver their diagnostics and add them to the tally. -/
theorem feedAll_eq (lines : List String) :
    tally.feedAll lines = (tally + ofDiagnostics (ofLines lines), ofLines lines) := by
  induction lines generalizing tally with
  | nil => rfl
  | cons line lines inductionHypothesis =>
    rw [feedAll, inductionHypothesis, tally_feed, delivered_feed, ofLines_cons line lines,
      ofDiagnostics_append, add_assoc]

theorem map_delivered_steps (lines : List String) :
    (tally.steps lines).map Step.delivered = lines.map fun line => ofLines [line] := by
  induction lines generalizing tally with
  | nil => rfl
  | cons line lines inductionHypothesis =>
    rw [steps, List.map_cons, List.map_cons, inductionHypothesis, delivered_feed]

theorem flatMap_delivered_steps (lines : List String) :
    (tally.steps lines).flatMap Step.delivered = ofLines lines := by
  induction lines generalizing tally with
  | nil => rfl
  | cons line lines inductionHypothesis =>
    rw [steps, List.flatMap_cons, inductionHypothesis, delivered_feed, ofLines_cons line lines]

/-- After each line the tally has grown by what has been delivered. -/
theorem tally_steps {lines : List String} {position : Nat} {step : Step}
    (reached : (tally.steps lines)[position]? = some step) :
    step.tally = tally +
      ofDiagnostics (((tally.steps lines).take (position + 1)).flatMap Step.delivered) := by
  induction lines generalizing tally position with
  | nil => simp [steps] at reached
  | cons line lines inductionHypothesis =>
    rw [steps] at reached ⊢
    rw [List.take_succ_cons, List.flatMap_cons, delivered_feed]
    cases position with
    | zero =>
      cases reached
      simp [tally_feed]
    | succ position =>
      rw [inductionHypothesis _ reached, tally_feed, add_assoc, ← ofDiagnostics_append]

/-- What feeding lines delivers and counts. -/
structure Keeps (lines : List String) : Prop where
  /-- Each line that is not blank is delivered once, as the diagnostic that it is read as. -/
  delivered : (zero.steps lines).map Step.delivered =
    lines.map fun line => if Text.isBlankLine line then [] else [ofLine line]
  /-- After each line the counters are the numbers of the errors and warnings delivered so far. -/
  counted : ∀ position step, (zero.steps lines)[position]? = some step →
    step.tally = ofDiagnostics (((zero.steps lines).take (position + 1)).flatMap Step.delivered)
  /-- What is left at the end is what was delivered on the way and its numbers. -/
  whole : zero.feedAll lines = (ofDiagnostics (ofLines lines), ofLines lines) ∧
    ofLines lines = (zero.steps lines).flatMap Step.delivered
  /-- Lines fed afterwards add their own counters and follow with their own diagnostics. -/
  later : ∀ others, zero.feedAll (lines ++ others) =
    ((zero.feedAll lines).1 + (zero.feedAll others).1,
      (zero.feedAll lines).2 ++ (zero.feedAll others).2)

theorem keeps (lines : List String) : Keeps lines where
  delivered := by
    rw [map_delivered_steps]
    refine List.map_congr_left fun line _ => ?_
    split <;> simp_all [ofLines]
  counted position step reached := by rw [tally_steps zero reached, zero_add]
  whole := ⟨by rw [feedAll_eq, zero_add], (flatMap_delivered_steps zero lines).symm⟩
  later others := by
    simp only [feedAll_eq, zero_add, ofLines_append, ofDiagnostics_append]

end Tally

end YaraReport.Diagnostic
