/-
This file looks at a watch moment by moment. The clock goes on, events reach the
queue and the process ends as the surroundings have it; the watcher takes events
off the queue, and ends the watch. Its deadline is looked at only when the queue
is empty: an event that is queued is taken at any time, so a process that prints
faster than its lines are handled is never cut short.

`supervise` is one course of such a watch (`supervise_ends`), and the main
statement `deadline_yields_to_queue` says what every course does at the deadline.
-/

import YaraReport.Proofs.Child.Watching
import YaraReport.Proofs.Outcome

namespace YaraReport.Child

/-! ### Moments -/

/-- An event that the watcher took, and what the clock showed then. -/
structure Taking where
  time : Nat
  event : Event
  deriving DecidableEq

structure Moment (State : Type) where
  clock : Nat
  /-- The arrivals that have not reached the queue yet. -/
  coming : List Arrival
  queue : List Event
  /-- The events taken so far, the latest first. -/
  log : List Taking
  /-- The number of streams that have not ended for the watcher. -/
  streams : Nat
  /-- How the process has ended, if there is an answer to that. -/
  exit : Option Exit
  state : State

def Moment.start {State : Type} (run : Run) (state : State) : Moment State :=
  ⟨0, run.arrivals, [], [], streamCount, none, state⟩

/-- What has become of a process when the watch over it ends. -/
inductive Fate where
  | ended (status : ExitStatus)
  | killed
  | unknown
  deriving DecidableEq

def Exit.fate (exit : Exit) : Fate :=
  match exit.answer with
  | .ok status => .ended status
  | .error _ => .unknown

/-- What a watch comes to when it ends. -/
structure Conclusion (State Stop : Type) where
  state : State
  fate : Fate
  outcome : Outcome Stop

section Steps

variable {State Stop : Type}

/-- Hands an event to a consumer, which is told of lines only. The watch goes on, unless it comes
to an outcome with this event. -/
def Consumer.hand (consumer : Consumer State Stop) (state : State) :
    Event → State × Option (Outcome Stop)
  | .output line => (consumer.onOutput state line).map id (Option.map .stopped)
  | .error line => (consumer.onError state line, none)
  | .closed => (state, none)
  | .broken error => (state, some (.unreadable error))

def Moment.take (consumer : Consumer State Stop) (moment : Moment State) (event : Event)
    (rest : List Event) : Moment State :=
  { moment with
    queue := rest
    log := ⟨moment.clock, event⟩ :: moment.log
    streams := if event = .closed then moment.streams - 1 else moment.streams
    state := (consumer.hand moment.state event).1 }

/-- What the surroundings do to a watch. -/
inductive Flows (run : Run) (moment : Moment State) : Moment State → Prop where
  | time (elapsed : Nat) : Flows run moment { moment with clock := moment.clock + elapsed }
  | arrival {arrival : Arrival} {rest : List Arrival} (next : moment.coming = arrival :: rest)
      (due : arrival.time ≤ moment.clock) :
      Flows run moment { moment with coming := rest, queue := moment.queue ++ [arrival.event] }
  | exit {exit : Exit} (ends : run.exit = some exit) (due : exit.time ≤ moment.clock) :
      Flows run moment { moment with exit := some exit }

/-- The watcher asks for an event and goes on with the one that it gets. -/
inductive Takes (consumer : Consumer State Stop) (moment : Moment State) :
    Moment State → Prop where
  | event {event : Event} {rest : List Event} (isOpen : 0 < moment.streams)
      (queued : moment.queue = event :: rest)
      (goesOn : (consumer.hand moment.state event).2 = none) :
      Takes consumer moment (moment.take consumer event rest)

/-- The watcher ends the watch. It kills a process that has not ended by itself. -/
inductive Ends (consumer : Consumer State Stop) (deadline : Nat) (moment : Moment State) :
    Conclusion State Stop → Prop where
  | stopped {event : Event} {rest : List Event} {outcome : Outcome Stop}
      (isOpen : 0 < moment.streams) (queued : moment.queue = event :: rest)
      (calls : (consumer.hand moment.state event).2 = some outcome) :
      Ends consumer deadline moment ⟨(consumer.hand moment.state event).1, .killed, outcome⟩
  | silent (isOpen : 0 < moment.streams) (empty : moment.queue = [])
      (due : deadline ≤ moment.clock) :
      Ends consumer deadline moment ⟨moment.state, .killed, .timedOut⟩
  | lingering (closed : moment.streams = 0) (lives : moment.exit = none)
      (due : deadline ≤ moment.clock) :
      Ends consumer deadline moment ⟨moment.state, .killed, .timedOut⟩
  | answered {exit : Exit} (closed : moment.streams = 0) (ended : moment.exit = some exit) :
      Ends consumer deadline moment ⟨moment.state, exit.fate, exit.outcome⟩

/-- The moments that a watch may come to, in whatever order events are queued and taken and the
clock goes on. -/
inductive Reaches (consumer : Consumer State Stop) (run : Run) (state : State) :
    Moment State → Prop where
  | start : Reaches consumer run state (.start run state)
  | flows {moment next : Moment State} (reaches : Reaches consumer run state moment)
      (flows : Flows run moment next) : Reaches consumer run state next
  | takes {moment next : Moment State} (reaches : Reaches consumer run state moment)
      (takes : Takes consumer moment next) : Reaches consumer run state next

/-! ### What every moment keeps -/

/-- Every arrival was taken, or is queued, or is still to come, in this order. -/
def Moment.Accounts (run : Run) (moment : Moment State) : Prop :=
  run.arrivals.map Arrival.event =
    (moment.log.reverse.map Taking.event ++ moment.queue) ++ moment.coming.map Arrival.event

variable {consumer : Consumer State Stop} {run : Run} {state : State} {deadline : Nat}
  {moment next : Moment State}

theorem Flows.accounts (flows : Flows run moment next) (accounts : moment.Accounts run) :
    next.Accounts run := by
  cases flows with
  | time elapsed => exact accounts
  | arrival coming due =>
    simp only [Moment.Accounts, coming, List.map_cons] at accounts ⊢
    rw [accounts, ← List.append_assoc, List.append_assoc _ [_], List.singleton_append]
  | exit ends due => exact accounts

theorem Takes.accounts (takes : Takes consumer moment next) (accounts : moment.Accounts run) :
    next.Accounts run := by
  cases takes with
  | event isOpen queued goesOn =>
    simp only [Moment.Accounts, queued, Moment.take, List.reverse_cons, List.map_append,
      List.map_singleton] at accounts ⊢
    rw [accounts, List.append_assoc _ [_], List.singleton_append]

theorem Reaches.accounts (reaches : Reaches consumer run state moment) :
    moment.Accounts run := by
  induction reaches with
  | start => rfl
  | flows _ flows inductionHypothesis => exact flows.accounts inductionHypothesis
  | takes _ takes inductionHypothesis => exact takes.accounts inductionHypothesis

/-! ### The deadline -/

/-- At a moment the watcher hands no event to the consumer, and all it can do is kill the process and
let the watch time out. -/
structure GivesUp (consumer : Consumer State Stop) (deadline : Nat) (moment : Moment State) :
    Prop where
  takes : ∀ next, ¬ Takes consumer moment next
  ends : ∀ conclusion, Ends consumer deadline moment conclusion ↔
    conclusion = ⟨moment.state, .killed, .timedOut⟩

theorem ends_iff_of_empty (isOpen : 0 < moment.streams) (empty : moment.queue = [])
    (due : deadline ≤ moment.clock) (conclusion : Conclusion State Stop) :
    Ends consumer deadline moment conclusion ↔
      conclusion = ⟨moment.state, .killed, .timedOut⟩ := by
  constructor
  · intro ends
    cases ends with
    | stopped _ queued _ => exact absurd (empty.symm.trans queued) (List.cons_ne_nil _ _).symm
    | silent _ _ _ => rfl
    | lingering closed _ _ => exact absurd closed (Nat.ne_of_gt isOpen)
    | answered closed _ => exact absurd closed (Nat.ne_of_gt isOpen)
  · rintro rfl
    exact .silent isOpen empty due

theorem not_takes_of_empty (empty : moment.queue = []) : ¬ Takes consumer moment next := by
  rintro ⟨_, queued, _⟩
  exact absurd (empty.symm.trans queued) (List.cons_ne_nil _ _).symm

/-- A watch comes to an outcome with an event where the consumer calls the run off or the event
says that a stream cannot be read on. -/
theorem Consumer.hand_eq_some {current : State} {event : Event} {outcome : Outcome Stop}
    (calls : (consumer.hand current event).2 = some outcome) :
    (∃ cause, outcome = .stopped cause) ∨ ∃ error, event = .broken error ∧
      outcome = .unreadable error := by
  cases event with
  | output line =>
    obtain ⟨cause, -, same⟩ := Option.map_eq_some_iff.mp calls
    exact .inl ⟨cause, same.symm⟩
  | error line | closed => cases calls
  | broken error => exact .inr ⟨error, rfl, (Option.some.inj calls).symm⟩

theorem Consumer.ne_timedOut_of_hand {current : State} {event : Event} {outcome : Outcome Stop}
    (calls : (consumer.hand current event).2 = some outcome) : outcome ≠ .timedOut := by
  rintro rfl
  rcases Consumer.hand_eq_some calls with ⟨cause, same⟩ | ⟨error, -, same⟩ <;> cases same

theorem Exit.outcome_ne_timedOut (exit : Exit) : (exit.outcome : Outcome Stop) ≠ .timedOut := by
  unfold Exit.outcome
  split <;> rintro ⟨⟩

/-- Where an event is queued the watcher takes it, whatever the clock shows: it goes on with it, or
its consumer calls the run off, or the stream of the event cannot be read on. -/
theorem takes_or_stops (isOpen : 0 < moment.streams) {event : Event} {rest : List Event}
    (queued : moment.queue = event :: rest) :
    Takes consumer moment (moment.take consumer event rest) ∨
      (∃ cause, Ends consumer deadline moment
        ⟨(consumer.hand moment.state event).1, .killed, .stopped cause⟩) ∨
      ∃ error, event = .broken error ∧
        Ends consumer deadline moment ⟨moment.state, .killed, .unreadable error⟩ := by
  cases calls : (consumer.hand moment.state event).2 with
  | none => exact .inl (.event isOpen queued calls)
  | some outcome =>
    have ends : Ends consumer deadline moment _ := .stopped isOpen queued calls
    rcases Consumer.hand_eq_some calls with ⟨cause, rfl⟩ | ⟨error, rfl, rfl⟩
    · exact .inr (.inl ⟨cause, ends⟩)
    · exact .inr (.inr ⟨error, rfl, ends⟩)

/-- A watch times out only at or after the deadline and only when no event is queued, and it kills
the process. -/
theorem Ends.of_timedOut {conclusion : Conclusion State Stop}
    (ends : Ends consumer deadline moment conclusion) (late : conclusion.outcome = .timedOut) :
    deadline ≤ moment.clock ∧ conclusion.fate = .killed ∧
      (0 < moment.streams → moment.queue = []) := by
  cases ends with
  | stopped _ _ calls => exact absurd late (Consumer.ne_timedOut_of_hand calls)
  | silent _ empty due => exact ⟨due, rfl, fun _ => empty⟩
  | lingering closed _ due => exact ⟨due, rfl, fun isOpen => absurd closed (Nat.ne_of_gt isOpen)⟩
  | answered _ _ => exact absurd late (Exit.outcome_ne_timedOut _)

/-- The watcher gives up on the streams at the deadline or after it exactly where no event is
queued. -/
theorem givesUp_iff (isOpen : 0 < moment.streams) (due : deadline ≤ moment.clock) :
    GivesUp consumer deadline moment ↔ moment.queue = [] := by
  refine ⟨fun givesUp => ?_, fun empty =>
    ⟨fun _ => not_takes_of_empty empty, ends_iff_of_empty isOpen empty due⟩⟩
  have ends := (givesUp.ends _).mpr rfl
  exact (ends.of_timedOut rfl).2.2 isOpen

/-! ### The course that is supervised -/

/-- The next event, if there is one, comes after the moment. -/
def Moment.IsQuiet (moment : Moment State) : Prop :=
  ∀ arrival ∈ moment.coming.head?, moment.clock < arrival.time

/-- What the receiving of events comes to is what a watch may come to. -/
inductive Completes (consumer : Consumer State Stop) (run : Run) (state : State) (deadline : Nat) :
    State × Streams Stop → Prop where
  | ended {moment : Moment State} (reaches : Reaches consumer run state moment)
      (closed : moment.streams = 0) (lives : moment.exit = none) :
      Completes consumer run state deadline (moment.state, .ended moment.clock)
  | concluded {moment : Moment State} {conclusion : Conclusion State Stop}
      (reaches : Reaches consumer run state moment)
      (ends : Ends consumer deadline moment conclusion)
      (quiet : conclusion.outcome = .timedOut → moment.IsQuiet) :
      Completes consumer run state deadline (conclusion.state, .over conclusion.outcome)

/-- The clock of a moment may go on to any later time. -/
theorem Reaches.until {later : Nat} (reaches : Reaches consumer run state moment)
    (le : moment.clock ≤ later) :
    Reaches consumer run state { moment with clock := later } := by
  obtain ⟨elapsed, rfl⟩ := Nat.exists_eq_add_of_le le
  exact reaches.flows (.time elapsed)

theorem Reaches.completes_silence (reaches : Reaches consumer run state moment)
    (isOpen : 0 < moment.streams) (empty : moment.queue = [])
    (quiet : ∀ arrival ∈ moment.coming.head?, max moment.clock deadline < arrival.time) :
    Completes consumer run state deadline (moment.state, silence (some deadline)) :=
  .concluded (reaches.until (Nat.le_max_left moment.clock deadline))
    (.silent isOpen empty (Nat.le_max_right moment.clock deadline)) fun _ => quiet

theorem Reaches.completes_stopped (reaches : Reaches consumer run state moment)
    (isOpen : 0 < moment.streams) {event : Event} {rest : List Event}
    (queued : moment.queue = event :: rest) {following : State} {outcome : Outcome Stop}
    (called : consumer.hand moment.state event = (following, some outcome)) :
    Completes consumer run state deadline (following, .over outcome) := by
  have calls : (consumer.hand moment.state event).2 = some outcome := congrArg Prod.snd called
  have ends : Ends consumer deadline moment ⟨_, .killed, outcome⟩ := .stopped isOpen queued calls
  rw [called] at ends
  exact .concluded reaches ends fun late => absurd late (Consumer.ne_timedOut_of_hand calls)

/-- The arrival that comes next reaches the queue, and the watcher asks for an event then. -/
theorem Reaches.arrives {arrival : Arrival} {rest : List Arrival}
    (reaches : Reaches consumer run state moment) (coming : moment.coming = arrival :: rest)
    (empty : moment.queue = []) :
    Reaches consumer run state
      { moment with
        clock := max moment.clock arrival.time, coming := rest, queue := [arrival.event] } := by
  have due := (reaches.until (Nat.le_max_left moment.clock arrival.time)).flows
    (.arrival coming (Nat.le_max_right moment.clock arrival.time))
  rwa [empty] at due

theorem receive_cons (deadline : Option Nat) (streams clock : Nat) (current : State)
    (arrival : Arrival) (rest : List Arrival) :
    receive consumer deadline (streams + 1) clock current (arrival :: rest) =
      if isTaken deadline clock arrival then
        match consumer.hand current arrival.event with
        | (following, some outcome) => (following, .over outcome)
        | (following, none) =>
          receive consumer deadline (if arrival.event = .closed then streams else streams + 1)
            (max clock arrival.time + arrival.handling) following rest
      else (current, silence deadline) := by
  rw [receive]
  cases arrival.event with
  | output line =>
    dsimp only [Consumer.hand]
    obtain ⟨following, _ | cause⟩ := consumer.onOutput current line <;> rfl
  | error line | closed | broken error => rfl

theorem receive_completes (streams clock : Nat) (current : State) (log : List Taking)
    (arrivals : List Arrival)
    (reaches : Reaches consumer run state ⟨clock, arrivals, [], log, streams, none, current⟩) :
    Completes consumer run state deadline
      (receive consumer (some deadline) streams clock current arrivals) := by
  induction arrivals generalizing streams clock current log with
  | nil =>
    cases streams with
    | zero => exact .ended reaches rfl rfl
    | succ streams =>
      exact reaches.completes_silence (Nat.succ_pos streams) rfl fun _ member => by cases member
  | cons arrival rest inductionHypothesis =>
    cases streams with
    | zero => exact .ended reaches rfl rfl
    | succ streams =>
      have asked := reaches.arrives rfl rfl
      rw [receive_cons]
      split
      · obtain ⟨following, outcome, called⟩ :
            ∃ following outcome, consumer.hand current arrival.event = (following, outcome) :=
          ⟨_, _, rfl⟩
        cases outcome with
        | some outcome =>
          rw [called]
          exact asked.completes_stopped (Nat.succ_pos streams) rfl called
        | none =>
          -- The watcher is busy with the event until it asks for the next one.
          have goesOn := (asked.takes (.event (Nat.succ_pos streams) rfl
            (congrArg Prod.snd called))).flows (.time arrival.handling)
          rw [Moment.take, called] at goesOn
          rw [called]
          exact inductionHypothesis _ _ _ _ goesOn
      · rename_i refused
        refine reaches.completes_silence (Nat.succ_pos streams) rfl fun other next => ?_
        obtain rfl := Option.some.inj next
        rw [isTaken, decide_eq_true_iff] at refused
        exact Nat.lt_of_not_le refused

theorem await_ends (reaches : Reaches consumer run state moment) (closed : moment.streams = 0)
    (lives : moment.exit = none) :
    ∃ final fate, Reaches consumer run state final ∧
      Ends consumer deadline final
        ⟨moment.state, fate, await (some deadline) moment.clock run.exit⟩ ∧
      final.streams = 0 := by
  have late : ∃ final fate, Reaches consumer run state final ∧
      Ends consumer deadline final ⟨moment.state, fate, .timedOut⟩ ∧ final.streams = 0 :=
    ⟨_, _, reaches.until (Nat.le_max_left moment.clock deadline),
      .lingering closed lives (Nat.le_max_right moment.clock deadline), closed⟩
  cases ended : run.exit with
  | none => exact late
  | some exit =>
    unfold await
    dsimp only
    split
    · exact ⟨_, _, (reaches.until (Nat.le_max_left moment.clock exit.time)).flows
        (.exit ended (Nat.le_max_right moment.clock exit.time)), .answered closed rfl, closed⟩
    · exact late

/-- What a supervised watch comes to is what the watch may come to in some order of its events. Where
it gives up on the streams, the next event would have come later. -/
theorem supervise_ends (consumer : Consumer State Stop) {reading deadline : Nat}
    (reachable : isReachable reading deadline = true) (state : State) (run : Run) :
    ∃ final fate, Reaches consumer run state final ∧
      Ends consumer deadline final
        ⟨(supervise consumer reading (some deadline) state run).state, fate,
          (supervise consumer reading (some deadline) state run).outcome⟩ ∧
      ((supervise consumer reading (some deadline) state run).outcome = .timedOut →
        0 < final.streams → final.IsQuiet) := by
  have within : (some deadline).all (isReachable reading) = true := reachable
  have completes : Completes consumer run state deadline _ :=
    receive_completes streamCount 0 state [] run.arrivals .start
  rw [supervise, if_pos within]
  generalize receive consumer (some deadline) streamCount 0 state run.arrivals = received
    at completes
  cases completes with
  | ended reaches closed lives =>
    obtain ⟨final, fate, reaches, ends, closed⟩ := await_ends reaches closed lives
    exact ⟨final, fate, reaches, ends, fun _ isOpen => absurd closed (Nat.ne_of_gt isOpen)⟩
  | concluded reaches ends quiet => exact ⟨_, _, reaches, ends, fun late _ => quiet late⟩

/-- What the deadline means at a moment at which the watcher waits for an event. -/
structure Moment.Obeys (consumer : Consumer State Stop) (deadline : Nat)
    (moment : Moment State) : Prop where
  /-- At the deadline or after it, the watcher hands over nothing more and kills the process exactly
  where no event is queued. -/
  idle : deadline ≤ moment.clock → (GivesUp consumer deadline moment ↔ moment.queue = [])
  /-- An event that is queued is taken whatever the clock shows, and the watch does not time out: a
  line is handed over, and a stream that cannot be read on ends the watch. -/
  busy : ∀ event rest, moment.queue = event :: rest →
    (Takes consumer moment (moment.take consumer event rest) ∨
      (∃ cause, Ends consumer deadline moment
        ⟨(consumer.hand moment.state event).1, .killed, .stopped cause⟩) ∨
      ∃ error, event = .broken error ∧
        Ends consumer deadline moment ⟨moment.state, .killed, .unreadable error⟩) ∧
    ∀ conclusion, Ends consumer deadline moment conclusion → conclusion.outcome ≠ .timedOut
  /-- A watch that times out does so at the deadline or after it, with its process killed. -/
  late : ∀ conclusion, Ends consumer deadline moment conclusion →
    conclusion.outcome = .timedOut → deadline ≤ moment.clock ∧ conclusion.fate = .killed

theorem obeys (consumer : Consumer State Stop) (deadline : Nat) {moment : Moment State}
    (isOpen : 0 < moment.streams) : moment.Obeys consumer deadline where
  idle due := givesUp_iff isOpen due
  busy event rest queued := by
    refine ⟨takes_or_stops isOpen queued, fun conclusion ends late => ?_⟩
    obtain ⟨-, -, empty⟩ := ends.of_timedOut late
    exact List.cons_ne_nil event rest (queued.symm.trans (empty isOpen))
  late _ ends late := ⟨(ends.of_timedOut late).1, (ends.of_timedOut late).2.1⟩

/-- The deadline of a watch counts only where no event is queued. Whatever the order in which events
are queued and taken and the clock goes on, the watch loses no event, and at the deadline or after
it the watcher gives up on the streams exactly where it has taken all that was queued. What is
supervised is such a watch; it gives up on the streams only before the next event comes. -/
theorem deadline_yields_to_queue (consumer : Consumer State Stop) (deadline : Nat)
    (state : State) (run : Run) :
    (∀ moment, Reaches consumer run state moment →
      moment.Accounts run ∧ (0 < moment.streams → moment.Obeys consumer deadline)) ∧
    ∀ reading, isReachable reading deadline = true →
      ∃ final fate, Reaches consumer run state final ∧
        Ends consumer deadline final
          ⟨(supervise consumer reading (some deadline) state run).state, fate,
            (supervise consumer reading (some deadline) state run).outcome⟩ ∧
        ((supervise consumer reading (some deadline) state run).outcome = .timedOut →
          0 < final.streams → final.IsQuiet) :=
  ⟨fun _ reaches => ⟨reaches.accounts, obeys consumer deadline⟩,
    fun _ reachable => supervise_ends consumer reachable state run⟩

end Steps

/-! ### A process that is faster than its watcher -/

/-- A process that prints two rules at once and ends. The watcher is busy with the first of them
for four units of time. -/
def backlog : Run :=
  ⟨[⟨0, .output "a [] []", 4⟩, ⟨0, .output "b [] []", 0⟩, ⟨0, .closed, 0⟩, ⟨0, .closed, 0⟩],
    some ⟨0, .ok (.code 0)⟩, by decide⟩

/-- Keeps all lines, the latest first. -/
def keeping : Consumer (List String) Failure :=
  ⟨fun lines line => (line :: lines, none), fun lines line => line :: lines⟩

/-- The moment at which the watcher is done with the first of the two rules. -/
def afterFirst : Moment (List String) :=
  ⟨4, [], [.output "b [] []", .closed, .closed], [⟨0, .output "a [] []"⟩], 2, none, ["a [] []"]⟩

theorem reaches_afterFirst : Reaches keeping backlog [] afterFirst := by
  have queued : Reaches keeping backlog []
      { Moment.start backlog [] with coming := [], queue := backlog.arrivals.map Arrival.event } :=
    (((Reaches.start.flows (.arrival rfl (Nat.le_refl 0))).flows
      (.arrival rfl (Nat.le_refl 0))).flows (.arrival rfl (Nat.le_refl 0))).flows
      (.arrival rfl (Nat.le_refl 0))
  exact (queued.takes (.event (by decide) rfl rfl)).flows (.time 4)

/-- With a time limit of one unit, the watch does not time out while the second of the two rules is
queued, and the process ends by itself; a process that prints nothing is killed at the deadline. -/
theorem deadline_yields_to_backlog :
    (∀ conclusion, Ends keeping 1 afterFirst conclusion → conclusion.outcome ≠ .timedOut) ∧
    GivesUp keeping 1 { Moment.start .silent [] with clock := 1 } ∧
    ∃ final fate, Reaches keeping backlog [] final ∧
      Ends keeping 1 final ⟨["b [] []", "a [] []"], fate, .exited (.code 0)⟩ := by
  obtain ⟨moments, courses⟩ := deadline_yields_to_queue keeping 1 [] backlog
  have busy := ((moments afterFirst reaches_afterFirst).2 (by decide)).busy _ _ rfl
  have silent := (deadline_yields_to_queue keeping 1 [] .silent).1 _
    (Reaches.start.flows (.time 1))
  obtain ⟨final, fate, reaches, ends, -⟩ := courses 0 (by decide)
  exact ⟨busy.2, ((silent.2 (by decide)).idle (by decide)).mpr rfl, final, fate, reaches, ends⟩

/-- A line is handed over although the clock is past the deadline when the watcher asks for it, and
the scan succeeds with it. -/
theorem handed_past_deadline :
    (∃ moment next, Reaches keeping backlog [] moment ∧ 1 ≤ moment.clock ∧
      Takes keeping moment next ∧ next.log.head? = some ⟨4, .output "b [] []"⟩) ∧
    (Scanner.withOneFile 1).observe (.running backlog) "/t" [] =
      ⟨.ok ⟨2, 0, []⟩, [⟨"a", [], [], []⟩, ⟨"b", [], [], []⟩], ["a [] []", "b [] []"]⟩ :=
  ⟨⟨afterFirst, _, reaches_afterFirst, by decide, .event (by decide) rfl rfl, rfl⟩,
    by decide +kernel⟩

end YaraReport.Child
