/-
This file proves that a run and its capture are read alike. What a tool prints is
read line by line while it runs; a capture of the same bytes is decoded as a
whole and read afterwards. Both come to the same rules or diagnostics, the same
counters and the same violation.
-/

import YaraReport.Compiler
import YaraReport.Proofs.Outcome
import YaraReport.Proofs.Text.Decoding

namespace YaraReport

open Child (Event Arrival Brings)

/-! ### Scans -/

namespace Scanner

/-- What a scan comes to is what reading a capture comes to: the same rules, and the same number
of entries left out or the same violation in the same line. -/
inductive Finished.Replays (text : String) (warnings : List String) (finished : Finished) :
    Prop where
  | whole (capture : Capture) (captured : Capture.ofText text = .ok capture)
      (outcome : finished.outcome = .ok ⟨capture.rules.length, capture.skipped, warnings⟩)
      (delivered : finished.delivered = capture.rules)
  | broken (position : Nat) (line : String) (violation : Violation)
      (captured : Capture.ofText text = .error violation)
      (number : violation.line? = some (position + 1))
      (own : (Text.lines text)[position]? = some line)
      (outcome : finished.outcome = .error (.invalidOutput (position + 1) line violation))
      (delivered : finished.delivered = (Reader.start.pass (Text.lines text)).delivered)

/-- A scan that succeeds and is not overdue comes to what the capture of its output comes to. -/
theorem scanFile_replays {scanner : Scanner} {machine : Machine} {target : String}
    {modules : ModuleData} {started : Machine.Started}
    (starts : scanner.Starts machine target modules started) {output error : List UInt8}
    (brings : Brings (Child.lines output) (Child.lines error)
      (started.run.arrivals.map Arrival.event))
    (exits : ∃ time, started.run.exit = some ⟨time, .ok (.code 0)⟩)
    (inTime : ∀ failure, (scanner.scanFile machine target modules).outcome = .error failure →
      failure.isOverdue = false) :
    (scanner.scanFile machine target modules).Replays (Text.Utf8.toStringLossy output)
      (Text.lines (Text.Utf8.toStringLossy error)) := by
  obtain ⟨time, exits⟩ := exits
  rw [Child.lines_eq, Child.lines_eq] at brings
  have settles := settles_settlement (Text.lines (Text.Utf8.toStringLossy output))
    (Text.lines (Text.Utf8.toStringLossy error)) (.code 0)
  rw [← observe_eq_settlement starts brings exits inTime] at settles
  cases settles with
  | broken before line later violation lines accepted violates outcome delivered =>
    obtain ⟨-, -, place⟩ := Reader.rejected_line accepted violates
    refine .broken before.length line violation ?_ place.line?_eq ?_ outcome ?_
    · rw [Capture.ofText, lines]
      exact Capture.ofLines_of_rejects accepted violates later
    · rw [lines, List.getElem?_append_right (Nat.le_refl _), Nat.sub_self]
      rfl
    · rw [lines, Reader.pass_of_rejects accepted violates]
      exact delivered
  | failed _ _ fails => cases fails
  | whole capture captured _ outcome delivered => exact .whole capture captured outcome delivered

end Scanner

/-! ### Compilations -/

namespace Compiler

/-- The lines of the error stream are read as diagnostics, and those of the output stream are
passed over. -/
theorem handle_consumer (progress : Progress) (events : List Event) :
    consumer.handle progress events =
      (⟨(progress.tally.feedAll (events.filterMap Event.error?)).1,
        (progress.tally.feedAll (events.filterMap Event.error?)).2.reverse ++ progress.delivered⟩,
        none) := by
  induction events generalizing progress with
  | nil => rfl
  | cons event events inductionHypothesis =>
    cases event with
    | output line | closed | broken error => exact inductionHypothesis progress
    | error line =>
      have lines : (Event.error line :: events).filterMap Event.error? =
          line :: events.filterMap Event.error? := rfl
      show consumer.handle (consumer.onError progress line) events = _
      rw [inductionHypothesis, lines, Diagnostic.Tally.feedAll]
      dsimp only
      rw [List.reverse_append, List.append_assoc]
      rfl

/-- The compiler has rules, and it is started on them and a temporary file. -/
structure Starts (compiler : Compiler) (machine : Machine) (started : Machine.Started) : Prop where
  rules : compiler.rules ≠ []
  launched : ∃ scratch extended, machine.makeScratch outputExtension = .ok (scratch, extended) ∧
    extended.launch compiler.executable.path (compiler.arguments scratch.path) = .ok started

/-- What a compilation comes to by the lines of the error stream and the status of the process
alone. -/
structure Finished.Settles (error : List String) (status : ExitStatus) (finished : Finished) :
    Prop where
  delivered : finished.delivered = (Diagnostic.Tally.zero.feedAll error).2
  outcome : finished.outcome.map Compiled.warnings =
    if status.isSuccess then .ok (Diagnostic.Tally.zero.feedAll error).1.warnings
    else .error (.compilationFailed (Diagnostic.Tally.zero.feedAll error).1.errors status)

/-- What a compilation comes to is what reading a capture comes to: the same diagnostics, and
the counter that its end reports. -/
structure Finished.Replays (text : String) (status : ExitStatus) (finished : Finished) : Prop where
  delivered : finished.delivered = (Diagnostic.Tally.zero.feedAll (Text.lines text)).2
  outcome : finished.outcome.map Compiled.warnings =
    if status.isSuccess then .ok (Diagnostic.Tally.zero.feedAll (Text.lines text)).1.warnings
    else .error (.compilationFailed (Diagnostic.Tally.zero.feedAll (Text.lines text)).1.errors status)

theorem conclude_outcome_error {scratch : Machine.Scratch}
    {finished : Executable.Finished Progress} {failure : Failure}
    (failed : finished.outcome = .error failure) :
    (conclude scratch finished).outcome = .error failure := by
  rw [conclude, failed]

theorem delivered_conclude (scratch : Machine.Scratch) (finished : Executable.Finished Progress) :
    (conclude scratch finished).delivered = finished.state.delivered.reverse := by
  unfold conclude
  dsimp only
  split
  · rfl
  · split <;> rfl

theorem warnings_conclude {scratch : Machine.Scratch} {finished : Executable.Finished Progress}
    {status : ExitStatus} (ended : finished.outcome = .ok status) :
    (conclude scratch finished).outcome.map Compiled.warnings =
      if status.isSuccess then .ok finished.state.tally.warnings
      else .error (.compilationFailed finished.state.tally.errors status) := by
  unfold conclude
  rw [ended]
  dsimp only
  split <;> rfl

/-- A compilation that is not overdue is settled by its error stream, whatever the output stream
brings and in whichever order the two do. -/
theorem compile_settles {compiler : Compiler} {machine : Machine} {started : Machine.Started}
    (starts : compiler.Starts machine started) {output error : List String}
    (brings : Brings output error (started.run.arrivals.map Arrival.event))
    {time : Nat} {status : ExitStatus} (exits : started.run.exit = some ⟨time, .ok status⟩)
    (inTime : ∀ failure, (compiler.compile machine).outcome = .error failure →
      failure.isOverdue = false) :
    (compiler.compile machine).Settles error status := by
  obtain ⟨scratch, extended, made, launched⟩ := starts.launched
  have whole : compiler.compile machine = conclude scratch
      (compiler.executable.run extended (compiler.arguments scratch.path) (some compiler.limit)
        consumer ⟨.zero, []⟩) := by
    rw [compile, List.isEmpty_eq_false_iff.mpr starts.rules, made]
    rfl
  rw [whole] at inTime ⊢
  have handled := handle_consumer ⟨.zero, []⟩ (started.run.arrivals.map Arrival.event)
  rw [brings.error_eq, List.append_nil] at handled
  rcases Executable.run_cases launched brings.closes fun failure failed =>
    inTime failure (conclude_outcome_error failed) with
    ⟨final, cause, called, -⟩ | ⟨final, ended, went, ends, ran⟩
  · cases (Prod.mk.inj (called.symm.trans handled)).2
  · obtain rfl := Option.some.inj (exits.symm.trans ends)
    obtain rfl := (Prod.mk.inj (went.symm.trans handled)).1
    rw [ran]
    refine ⟨?_, warnings_conclude rfl⟩
    rw [delivered_conclude, List.reverse_reverse]

/-- A compilation that is not overdue comes to what the capture of its error stream comes to. -/
theorem compile_replays {compiler : Compiler} {machine : Machine} {started : Machine.Started}
    (starts : compiler.Starts machine started) {output error : List UInt8}
    (brings : Brings (Child.lines output) (Child.lines error)
      (started.run.arrivals.map Arrival.event))
    {time : Nat} {status : ExitStatus} (exits : started.run.exit = some ⟨time, .ok status⟩)
    (inTime : ∀ failure, (compiler.compile machine).outcome = .error failure →
      failure.isOverdue = false) :
    (compiler.compile machine).Replays (Text.Utf8.toStringLossy error) status := by
  rw [Child.lines_eq error] at brings
  have settles := compile_settles starts brings exits inTime
  exact ⟨settles.delivered, settles.outcome⟩

end Compiler

/-! ### Runs and captures -/

/-- Cutting the bytes of a stream into lines and decoding each is decoding the bytes and cutting
the text. So a scan and a compilation that are not overdue come to what reading the captures of
their streams comes to. -/
theorem runs_replay_captures :
    (∀ bytes, Child.lines bytes = Text.lines (Text.Utf8.toStringLossy bytes)) ∧
    (∀ (scanner : Scanner) (machine : Machine) (target : String) (modules : ModuleData)
      (started : Machine.Started) (output error : List UInt8),
      scanner.Starts machine target modules started →
      Brings (Child.lines output) (Child.lines error) (started.run.arrivals.map Arrival.event) →
      (∃ time, started.run.exit = some ⟨time, .ok (.code 0)⟩) →
      (∀ failure, (scanner.scanFile machine target modules).outcome = .error failure →
        failure.isOverdue = false) →
      (scanner.scanFile machine target modules).Replays (Text.Utf8.toStringLossy output)
        (Text.lines (Text.Utf8.toStringLossy error))) ∧
    ∀ (compiler : Compiler) (machine : Machine) (started : Machine.Started)
      (output error : List UInt8) (time : Nat) (status : ExitStatus),
      compiler.Starts machine started →
      Brings (Child.lines output) (Child.lines error) (started.run.arrivals.map Arrival.event) →
      started.run.exit = some ⟨time, .ok status⟩ →
      (∀ failure, (compiler.compile machine).outcome = .error failure →
        failure.isOverdue = false) →
      (compiler.compile machine).Replays (Text.Utf8.toStringLossy error) status :=
  ⟨Child.lines_eq, fun _ _ _ _ _ _ _ starts brings exits inTime =>
    Scanner.scanFile_replays starts brings exits inTime,
    fun _ _ _ _ _ _ _ starts brings exits inTime =>
    Compiler.compile_replays starts brings exits inTime⟩

/-- A character that is broken off before a line end, on both streams. -/
theorem runs_replay_captures_broken_character :
    (Scanner.scanFile ⟨⟨"/s"⟩, ["/r"], false, false, none, 1⟩
      (.running (.printing 0 [0xE2, 0x82, 13, 10] [0xC3, 10] (.exits (.code 0)))) "/t" []).Replays
        "\uFFFD\r\n" ["\uFFFD"] ∧
    (Compiler.compile ⟨⟨"/s"⟩, [("", ["/r"])], 1⟩
      (.running (.printing 0 [] [0xE2, 0x82, 13, 10] (.exits (.code 1))))).Replays
        "\uFFFD\r\n" (.code 1) := by
  constructor
  · refine runs_replay_captures.2.1 _ _ _ _ _ [0xE2, 0x82, 13, 10] [0xC3, 10]
      ⟨List.cons_ne_nil _ _, "/t", rfl, rfl⟩ ?_ ⟨0, rfl⟩ fun failure failed => ?_
    · exact .left (.left (.right (.right .done)))
    · cases failed
      rfl
  · refine runs_replay_captures.2.2 _ _ _ [] [0xE2, 0x82, 13, 10] 0 (.code 1)
      ⟨List.cons_ne_nil _ _, _, _, rfl, rfl⟩ ?_ rfl fun failure failed => ?_
    · exact .left (.right (.right .done))
    · cases failed
      rfl

end YaraReport
