/-
This file proves what a watch over a process does not depend on. A consumer may
keep more than another: as long as it does the same with each line, the watch
goes on and ends in the same way (`supervise_of_projects`). And the clock does not
matter where all events and the end of the process come by the deadline: such a
watch is not cut short (`supervise_prompt`).
-/

import YaraReport.Proofs.Child.Interleaving

namespace YaraReport.Child

variable {State Fine Stop : Type}

/-! ### Consumers that keep more -/

/-- One consumer does what another does, on states that hold the other one's. -/
structure Consumer.Projects (view : Fine → State) (fine : Consumer Fine Stop)
    (coarse : Consumer State Stop) : Prop where
  onOutput (state : Fine) (line : String) :
    coarse.onOutput (view state) line = (fine.onOutput state line).map view id
  onError (state : Fine) (line : String) :
    coarse.onError (view state) line = view (fine.onError state line)

/-- The consumer that also keeps the lines of the output stream that it is handed, the latest
first. -/
def Consumer.noting (consumer : Consumer State Stop) : Consumer (State × List String) Stop where
  onOutput noted line :=
    (((consumer.onOutput noted.1 line).1, line :: noted.2), (consumer.onOutput noted.1 line).2)
  onError noted line := (consumer.onError noted.1 line, noted.2)

theorem Consumer.noting_onOutput (consumer : Consumer State Stop) (state : State)
    (lines : List String) (line : String) :
    consumer.noting.onOutput (state, lines) line =
      (((consumer.onOutput state line).1, line :: lines), (consumer.onOutput state line).2) := rfl

theorem Consumer.noting_projects (consumer : Consumer State Stop) :
    Projects Prod.fst consumer.noting consumer :=
  ⟨fun _ _ => rfl, fun _ _ => rfl⟩

variable {view : Fine → State} {fine : Consumer Fine Stop} {coarse : Consumer State Stop}

theorem receive_of_projects (projects : fine.Projects view coarse) (deadline : Option Nat)
    (streams clock : Nat) (state : Fine) (arrivals : List Arrival) :
    receive coarse deadline streams clock (view state) arrivals =
      (receive fine deadline streams clock state arrivals).map view id := by
  induction arrivals generalizing streams clock state with
  | nil => cases streams <;> rfl
  | cons arrival rest inductionHypothesis =>
    cases streams with
    | zero => rfl
    | succ streams =>
      rw [receive, receive]
      split
      · cases arrival.event with
        | output line =>
          dsimp only
          rw [projects.onOutput]
          obtain ⟨next, _ | cause⟩ := fine.onOutput state line
          · exact inductionHypothesis _ _ next
          · rfl
        | error line =>
          dsimp only
          rw [projects.onError]
          exact inductionHypothesis _ _ _
        | closed => exact inductionHypothesis _ _ state
        | broken error => rfl
      · rfl

theorem supervise_of_projects (projects : fine.Projects view coarse) (reading : Nat)
    (limit : Option Nat) (state : Fine) (run : Run) :
    supervise coarse reading limit (view state) run =
      ⟨view (supervise fine reading limit state run).state,
        (supervise fine reading limit state run).outcome⟩ := by
  unfold supervise
  split
  · rw [receive_of_projects projects]
    obtain ⟨final, clock | outcome⟩ := receive fine limit streamCount 0 state run.arrivals <;> rfl
  · rfl

/-! ### Processes that end in time -/

/-- The last question whether the process has ended is not asked before the deadline. -/
theorem le_lastPoll (clock deadline : Nat) : deadline ≤ lastPoll clock deadline := by
  have positive : 0 < pollInterval := by decide
  have whole := Nat.div_add_mod (deadline - clock + pollInterval - 1) pollInterval
  have rest := Nat.mod_lt (deadline - clock + pollInterval - 1) positive
  rw [lastPoll]
  omega

theorem isCutShort_exit (exit : Exit) : (exit.outcome : Outcome Stop).isCutShort = false := by
  unfold Exit.outcome
  split <;> rfl

/-- The events and the end of a process all come within the time limit. -/
structure Run.Prompt (limit : Nat) (run : Run) : Prop where
  arrivals : ∀ arrival ∈ run.arrivals, arrival.time ≤ limit
  exit : ∃ exit, run.exit = some exit ∧ exit.time ≤ limit

theorem Run.Prompt.not_late {limit : Nat} {run : Run} (prompt : run.Prompt limit) :
    ¬ Late (some limit) run.arrivals := by
  rintro ⟨arrival, member, clock, refused⟩
  have inTime : arrival.time ≤ max clock limit :=
    Nat.le_trans (prompt.arrivals arrival member) (Nat.le_max_right clock limit)
  rw [isTaken, decide_eq_false_iff_not] at refused
  exact refused inTime

/-- A watch over a prompt process is not cut short. -/
theorem supervise_prompt (consumer : Consumer State Stop) {reading limit : Nat}
    (reachable : isReachable reading limit = true) (state : State) {run : Run}
    (closes : Closes streamCount (run.arrivals.map Arrival.event)) (prompt : run.Prompt limit) :
    (supervise consumer reading (some limit) state run).outcome.isCutShort = false := by
  obtain ⟨exit, ended, inTime⟩ := prompt.exit
  have within : (some limit).all (isReachable reading) = true := reachable
  unfold supervise
  rw [if_pos within]
  have handled := receive_handled consumer (some limit) 0 state closes
  generalize receive consumer (some limit) streamCount 0 state run.arrivals = received at handled
  generalize consumer.handle state (run.arrivals.map Arrival.event) = result at handled
  rcases handled with ⟨-, late⟩ | handled
  · exact absurd late prompt.not_late
  · cases handled with
    | ended final clock =>
      have asked : exit.time ≤ lastPoll clock limit := Nat.le_trans inTime (le_lastPoll clock limit)
      have answers : (await (some limit) clock (some exit) : Outcome Stop) = exit.outcome :=
        if_pos asked
      dsimp only
      rw [ended, answers]
      exact isCutShort_exit exit
    | stopped final cause => rfl

end YaraReport.Child
