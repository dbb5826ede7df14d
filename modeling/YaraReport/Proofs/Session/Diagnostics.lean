/-
This file proves that the errors that the program reports are as many as the tool
printed. Reading a capture of diagnostics succeeds exactly if no line of it is an error,
and a compiler that fails is reported with the number of lines of its error stream that
are errors, whatever it prints on its output stream meanwhile. Both numbers come from one
tally, which keeps in step with the diagnostics that are delivered (`Tally.keeps`).
-/

import YaraReport.Proofs.Diagnostic.Counting
import YaraReport.Proofs.Replay
import YaraReport.Proofs.Session.Ending

namespace YaraReport

open Child (Arrival Brings)

/-- How many of some lines are errors. -/
def Diagnostic.errorCount (lines : List String) : Nat :=
  lines.countP fun line => (ofLine line).severity = .error

theorem Diagnostic.errors_feedAll (lines : List String) :
    (Tally.zero.feedAll lines).1.errors = errorCount lines := by
  rw [Tally.feedAll_eq, Tally.zero_add]
  exact number_ofLines (fun same => by cases same) lines

theorem Diagnostic.errorCount_eq_zero_iff (lines : List String) :
    errorCount lines = 0 ↔ ∀ line ∈ lines, (ofLine line).severity ≠ .error := by
  simp [errorCount, List.countP_eq_zero]

/-! ### Compilations that fail -/

namespace Compiler

/-- What a compilation reports whose process failed after it printed some lines on its error
stream. -/
structure Finished.Reports (error : List String) (status : ExitStatus) (finished : Finished) :
    Prop where
  delivered : finished.delivered = Diagnostic.ofLines error
  outcome : finished.outcome = .error (.compilationFailed (Diagnostic.errorCount error) status)
  message : ∀ failure, finished.outcome = .error failure →
    failure.message = "Compilation failed with " ++ toString (Diagnostic.errorCount error) ++
      " error(s) (" ++ status.shown ++ ")"

theorem Finished.Settles.reports {error : List String} {status : ExitStatus} {finished : Finished}
    (settles : finished.Settles error status) (fails : status.isSuccess = false) :
    finished.Reports error status := by
  have outcome : finished.outcome =
      .error (.compilationFailed (Diagnostic.errorCount error) status) := by
    have counted := settles.outcome
    rw [fails, if_neg Bool.false_ne_true, Diagnostic.errors_feedAll] at counted
    cases ended : finished.outcome with
    | ok compiled =>
      rw [ended] at counted
      cases counted
    | error failure =>
      rw [ended] at counted
      exact congrArg _ (Except.error.inj counted)
  refine ⟨?_, outcome, fun failure failed => ?_⟩
  · rw [settles.delivered, Diagnostic.Tally.feedAll_eq]
  · rw [outcome] at failed
    cases failed
    rfl

end Compiler

namespace Session

/-! ### Captures of diagnostics -/

/-- Reading a capture of diagnostics succeeds or fails with the number of errors in it. -/
theorem exit_readDiagnostics {machine : Machine} {stdin : List UInt8} {request : CaptureRequest}
    {input : Input} (found : readInput machine stdin request = .ok input) (context : Context) :
    (readDiagnostics context machine stdin request).exit =
      .ofSuccess (Diagnostic.errorCount (Text.lines input.text) = 0) := by
  rw [readDiagnostics, found, ← Diagnostic.errors_feedAll]

/-- Diagnostics are delivered once each and in order, and the counters keep in step with them. So
reading a readable capture succeeds exactly if none of its lines is an error, and a compiler that
ends by itself without success is reported with the number of errors on its error stream. -/
theorem diagnostics_add_up :
    (∀ lines, Diagnostic.Tally.Keeps lines) ∧
    (∀ (readers : Readers) (machine : Machine) (terminal noColor : Bool) (arguments : List String)
      (request : CaptureRequest) (stdin : List UInt8) (input : Input),
      readers.arguments arguments = .ok ⟨.readDiagnostics request, noColor⟩ →
      readInput machine stdin request = .ok input →
      ((run readers machine terminal arguments stdin).exit.code = 0 ↔
        ∀ line ∈ Text.lines input.text, (Diagnostic.ofLine line).severity ≠ .error) ∧
      ((run readers machine terminal arguments stdin).exit = .success ∨
        (run readers machine terminal arguments stdin).exit = .failure)) ∧
    ∀ (compiler : Compiler) (machine : Machine) (started : Machine.Started)
      (output error : List String) (time : Nat) (status : ExitStatus),
      compiler.Starts machine started →
      Brings output error (started.run.arrivals.map Arrival.event) →
      started.run.exit = some ⟨time, .ok status⟩ →
      status.isSuccess = false →
      (∀ failure, (compiler.compile machine).outcome = .error failure →
        failure.isOverdue = false) →
      (compiler.compile machine).Reports error status := by
  refine ⟨Diagnostic.Tally.keeps,
    fun readers machine terminal noColor arguments request stdin input asked found => ?_,
    fun _ _ _ _ _ _ _ starts brings exits fails inTime =>
      (Compiler.compile_settles starts brings exits inTime).reports fails⟩
  have exit : (run readers machine terminal arguments stdin).exit =
      .ofSuccess (Diagnostic.errorCount (Text.lines input.text) = 0) := by
    rw [run_of_read asked]
    exact exit_readDiagnostics found _
  rw [exit]
  refine ⟨?_, exit_ofSuccess _⟩
  rw [code_ofSuccess_eq_zero_iff, decide_eq_true_iff, Diagnostic.errorCount_eq_zero_iff]

/-- A process that prints two errors around a line of its output stream and fails. -/
def complaining : Child.Run where
  arrivals := [⟨0, .error "a(1): error: b", 0⟩, ⟨0, .output "(2): error: c", 0⟩, ⟨0, .closed, 0⟩,
    ⟨1, .error "(2): ERR: d", 0⟩, ⟨1, .closed, 0⟩]
  exit := some ⟨1, .ok (.code 3)⟩
  ordered := by decide

/-- A capture with a warning, a line that is no diagnostic and a blank one, and a compiler whose
error stream holds two errors around a line of its output stream. -/
theorem diagnostics_add_up_mixed :
    (run .standard atOnce false ["parse-diagnostics"]
        "a(1): warning: b\n \nc\n".toUTF8.toList).exit.code = 0 ∧
      (Compiler.compile ⟨⟨"/s"⟩, [("", ["/r"])], 1⟩ (.running complaining)).outcome =
        .error (.compilationFailed 2 (.code 3)) := by
  constructor
  · have read := diagnostics_add_up.2.1 .standard atOnce false false ["parse-diagnostics"]
      ⟨none, false⟩ "a(1): warning: b\n \nc\n".toUTF8.toList _ (by decide +kernel) rfl
    exact read.1.mpr (by decide +kernel)
  · have brings : Brings ["(2): error: c"] ["a(1): error: b", "(2): ERR: d"]
        (complaining.arrivals.map Arrival.event) :=
      .right (.left (.left (.right (.right .done))))
    have reports := diagnostics_add_up.2.2 ⟨⟨"/s"⟩, [("", ["/r"])], 1⟩ (.running complaining) _ _ _
      1 (.code 3) ⟨List.cons_ne_nil _ _, _, _, rfl, rfl⟩ brings rfl rfl fun failure failed => by
        cases failed
        rfl
    exact reports.outcome

end Session

end YaraReport
