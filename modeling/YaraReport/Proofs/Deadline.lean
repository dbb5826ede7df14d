/-
This file proves when a run fails for want of a deadline. The deadline is the
clock's reading when the program is started and the time limit, added without a
check; where the clock cannot show that moment, the run fails with the program
already started. Nothing else fails it in that way.

The failure is raised by the watch over the process alone (`Child.supervise_arises`);
`Scanner.scanFile_deadlineUnreachable_iff` and `Compiler.compile_deadlineUnreachable_iff`
carry it to the tools.
-/

import YaraReport.Compiler
import YaraReport.Proofs.Machine
import YaraReport.Proofs.Outcome

namespace YaraReport

/-! ### Watches -/

namespace Child

variable {State Stop : Type} (consumer : Consumer State Stop)

/-- Whether a watch can end in a way once it has a deadline: the consumer must have called it off
at some line, if anyone did. -/
def Outcome.Arises (consumer : Consumer State Stop) : Outcome Stop → Prop
  | .exited _ | .timedOut | .endless | .unreadable _ | .unanswered _ => True
  | .stopped cause => ∃ state line, (consumer.onOutput state line).2 = some cause
  | .unreachable => False

theorem silence_arises {deadline : Option Nat} {outcome : Outcome Stop}
    (ends : silence deadline = .over outcome) : outcome.Arises consumer := by
  cases deadline <;> cases ends <;> trivial

theorem receive_arises {deadline : Option Nat} {outcome : Outcome Stop} (streams clock : Nat)
    (state : State) (arrivals : List Arrival)
    (ends : (receive consumer deadline streams clock state arrivals).2 = .over outcome) :
    outcome.Arises consumer := by
  -- Whatever is done with an arrival, the rest is received with another state and clock.
  induction arrivals generalizing streams clock state with
  | nil =>
    cases streams with
    | zero => cases ends
    | succ streams => exact silence_arises consumer ends
  | cons arrival rest inductionHypothesis =>
    cases streams with
    | zero => cases ends
    | succ streams =>
      unfold receive at ends
      split at ends
      · cases event : arrival.event with
        | output line =>
          rw [event] at ends
          dsimp only at ends
          obtain ⟨next, called⟩ | ⟨next, cause, called⟩ :
              (∃ next, consumer.onOutput state line = (next, none)) ∨
                ∃ next cause, consumer.onOutput state line = (next, some cause) := by
            obtain ⟨next, _ | cause⟩ := consumer.onOutput state line
            · exact .inl ⟨next, rfl⟩
            · exact .inr ⟨next, cause, rfl⟩
          · rw [called] at ends
            exact inductionHypothesis _ _ next ends
          · rw [called] at ends
            cases ends
            exact ⟨state, line, congrArg Prod.snd called⟩
        | error line =>
          rw [event] at ends
          exact inductionHypothesis _ _ _ ends
        | closed =>
          rw [event] at ends
          exact inductionHypothesis _ _ state ends
        | broken error =>
          rw [event] at ends
          cases ends
          trivial
      · exact silence_arises consumer ends

theorem Exit.arises (exit : Exit) : (exit.outcome : Outcome Stop).Arises consumer := by
  unfold Exit.outcome
  split <;> trivial

theorem await_arises (deadline : Option Nat) (clock : Nat) (exit : Option Exit) :
    (await deadline clock exit : Outcome Stop).Arises consumer := by
  cases exit with
  | none => cases deadline <;> trivial
  | some exit =>
    cases deadline with
    | none => exact exit.arises consumer
    | some deadline =>
      unfold await
      dsimp only
      split
      · exact exit.arises consumer
      · trivial

/-- A watch whose deadline the clock can show does not end for want of one. -/
theorem supervise_arises {reading : Nat} {limit : Option Nat}
    (within : limit.all (isReachable reading) = true) (state : State) (run : Run) :
    (supervise consumer reading limit state run).outcome.Arises consumer := by
  have arises (outcome : Outcome Stop)
      (ends : (receive consumer limit streamCount 0 state run.arrivals).2 = .over outcome) :=
    receive_arises consumer streamCount 0 state run.arrivals ends
  unfold supervise
  rw [if_pos within]
  generalize receive consumer limit streamCount 0 state run.arrivals = received at arises
  obtain ⟨final, clock | outcome⟩ := received
  · exact await_arises consumer limit clock run.exit
  · exact arises outcome rfl

theorem isReachable_seconds (reading seconds : Nat) :
    isReachable reading (seconds * Text.second) = true ↔
      reading / Text.second + seconds < 0x8000000000000000 := by
  rw [isReachable, Nat.add_mul_div_right reading seconds (by decide), decide_eq_true_iff]

end Child

/-! ### Runs -/

namespace Executable

/-- A run fails for want of a deadline if its program was started and the clock cannot show the
deadline. -/
theorem run_deadlineUnreachable_iff {State : Type} {consumer : Child.Consumer State Failure}
    (others : ∀ state line, (consumer.onOutput state line).2 ≠ some .deadlineUnreachable)
    (executable : Executable) (machine : Machine) (arguments : List String) (limit : Nat)
    (state : State) :
    (executable.run machine arguments (some limit) consumer state).outcome =
        .error .deadlineUnreachable ↔
      (executable.run machine arguments (some limit) consumer state).launch.isSome = true ∧
        Child.isReachable machine.clock limit = false := by
  unfold run
  cases machine.launch executable.path arguments with
  | error error => exact iff_of_false (fun same => by cases same) fun started => by cases started.1
  | ok started =>
    dsimp only
    rw [Option.isSome_some, and_iff_right rfl]
    cases reachable : Child.isReachable machine.clock limit with
    | false =>
      have beyond : ¬ (some limit).all (Child.isReachable machine.clock) = true := fun within =>
        Bool.noConfusion (reachable.symm.trans within)
      rw [Child.supervise, if_neg beyond]
      exact iff_of_true rfl rfl
    | true =>
      have within : (some limit).all (Child.isReachable machine.clock) = true := reachable
      have arises := Child.supervise_arises consumer within state started.run
      refine iff_of_false (fun same => ?_) Bool.noConfusion
      generalize (Child.supervise consumer machine.clock (some limit) state started.run).outcome =
        outcome at arises same
      cases outcome with
      | stopped cause =>
        obtain ⟨state, line, called⟩ := arises
        obtain rfl : cause = .deadlineUnreachable := Except.error.inj same
        exact others state line called
      | unreachable => exact arises
      | exited _ | timedOut | endless | unreadable _ | unanswered _ => cases same

end Executable

namespace Scanner

theorem onOutput_others (progress : Progress) (line : String) :
    (consumer.onOutput progress line).2 ≠ some .deadlineUnreachable := by
  intro called
  obtain ⟨violation, -, same⟩ := Option.map_eq_some_iff.mp called
  cases same

theorem launch_conclude (finished : Executable.Finished Progress) :
    (conclude finished).launch = finished.launch := by
  unfold conclude
  dsimp only
  split
  · rfl
  · split <;> rfl

theorem conclude_deadlineUnreachable_iff (finished : Executable.Finished Progress) :
    (conclude finished).outcome = .error .deadlineUnreachable ↔
      finished.outcome = .error .deadlineUnreachable := by
  refine ⟨fun failed => ?_, conclude_outcome_error⟩
  unfold conclude at failed
  dsimp only at failed
  split at failed
  · rename_i failure same
    rw [same, Except.error.inj failed]
  · split at failed <;> cases failed

theorem scanFile_deadlineUnreachable_iff (scanner : Scanner) (machine : Machine) (target : String)
    (modules : ModuleData) :
    (scanner.scanFile machine target modules).outcome = .error .deadlineUnreachable ↔
      (scanner.scanFile machine target modules).launch.isSome = true ∧
        Child.isReachable machine.clock scanner.limit = false := by
  have refuse {failure : Failure} (other : failure ≠ .deadlineUnreachable) :
      (refused machine failure).outcome = .error .deadlineUnreachable ↔
        (refused machine failure).launch.isSome = true ∧
          Child.isReachable machine.clock scanner.limit = false :=
    iff_of_false (fun same => other (Except.error.inj same)) fun started => by cases started.1
  unfold scanFile
  split
  · exact refuse Failure.noConfusion
  · split
    · exact refuse Failure.noConfusion
    · rw [conclude_deadlineUnreachable_iff, launch_conclude]
      exact Executable.run_deadlineUnreachable_iff onOutput_others _ _ _ _ _

end Scanner

namespace Compiler

theorem launch_conclude (scratch : Machine.Scratch) (finished : Executable.Finished Progress) :
    (conclude scratch finished).launch = finished.launch := by
  unfold conclude
  dsimp only
  split
  · rfl
  · split <;> rfl

theorem conclude_deadlineUnreachable_iff (scratch : Machine.Scratch)
    (finished : Executable.Finished Progress) :
    (conclude scratch finished).outcome = .error .deadlineUnreachable ↔
      finished.outcome = .error .deadlineUnreachable := by
  refine ⟨fun failed => ?_, fun failed => ?_⟩
  · unfold conclude at failed
    dsimp only at failed
    split at failed
    · rename_i failure same
      rw [same, Except.error.inj failed]
    · split at failed <;> cases failed
  · rw [conclude, failed]

theorem compile_deadlineUnreachable_iff (compiler : Compiler) (machine : Machine) :
    (compiler.compile machine).outcome = .error .deadlineUnreachable ↔
      (compiler.compile machine).launch.isSome = true ∧
        Child.isReachable machine.clock compiler.limit = false := by
  unfold compile
  split
  · exact iff_of_false (fun same => by cases same) fun started => by cases started.1
  · split
    · exact iff_of_false (fun same => by cases same) fun started => by cases started.1
    · rename_i scratch extended made
      rw [conclude_deadlineUnreachable_iff, launch_conclude,
        ← (Machine.makes_of_makeScratch made).clock]
      exact Executable.run_deadlineUnreachable_iff (fun _ _ called => by cases called) _ _ _ _ _

/-- Persisting fails in one way only, where the rules can be neither moved nor copied. -/
theorem Compiled.error_of_persist {compiled : Compiled} {machine : Machine} {destination : String}
    {failure : Failure} (failed : (compiled.persist machine destination).1 = .error failure) :
    ∃ error, failure = .notPersisted destination error := by
  unfold persist at failed
  split at failed
  · cases failed
  · split at failed
    · cases failed
    · rename_i error _
      cases failed
      exact ⟨error, rfl⟩

end Compiler

end YaraReport
