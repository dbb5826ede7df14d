/-
This file takes time and order out of a watch over a process. The events of two
streams reach the queue in some interleaving, each stream with its lines in
order and its end after them. Whatever the interleaving and the clock, the watch
is over for want of time, or the consumer has been handed all events in order, or
all up to the one at which it called the run off.
-/

import YaraReport.Child.Supervision

namespace YaraReport.Child

/-! ### Interleavings -/

/-- A list holds the items of two others, those of each in their order. -/
inductive Interleaves {Item : Type} : List Item → List Item → List Item → Prop where
  | done : Interleaves [] [] []
  | left {item : Item} {first second whole : List Item} (rest : Interleaves first second whole) :
      Interleaves (item :: first) second (item :: whole)
  | right {item : Item} {first second whole : List Item} (rest : Interleaves first second whole) :
      Interleaves first (item :: second) (item :: whole)

namespace Interleaves

variable {Item : Type} {first second whole : List Item}

theorem eq_left (interleaves : Interleaves first [] whole) : whole = first := by
  generalize same : ([] : List Item) = second at interleaves
  induction interleaves with
  | done => rfl
  | left _ inductionHypothesis => rw [inductionHypothesis same]
  | right _ _ => cases same

theorem eq_right (interleaves : Interleaves [] second whole) : whole = second := by
  generalize same : ([] : List Item) = first at interleaves
  induction interleaves with
  | done => rfl
  | left _ _ => cases same
  | right _ inductionHypothesis => rw [inductionHypothesis same]

/-- What is gathered from an interleaving is interleaved. -/
theorem filterMap {Image : Type} (gather : Item → Option Image)
    (interleaves : Interleaves first second whole) :
    Interleaves (first.filterMap gather) (second.filterMap gather) (whole.filterMap gather) := by
  induction interleaves with
  | done => exact .done
  | @left item _ _ _ _ inductionHypothesis =>
    cases gathered : gather item with
    | none =>
      rw [List.filterMap_cons_none gathered, List.filterMap_cons_none gathered]
      exact inductionHypothesis
    | some image =>
      rw [List.filterMap_cons_some gathered, List.filterMap_cons_some gathered]
      exact .left inductionHypothesis
  | @right item _ _ _ _ inductionHypothesis =>
    cases gathered : gather item with
    | none =>
      rw [List.filterMap_cons_none gathered, List.filterMap_cons_none gathered]
      exact inductionHypothesis
    | some image =>
      rw [List.filterMap_cons_some gathered, List.filterMap_cons_some gathered]
      exact .right inductionHypothesis

theorem count_eq [DecidableEq Item] (interleaves : Interleaves first second whole) (item : Item) :
    whole.count item = first.count item + second.count item := by
  induction interleaves with
  | done => rfl
  | left _ inductionHypothesis | right _ inductionHypothesis =>
    rw [List.count_cons, List.count_cons, inductionHypothesis]
    omega

theorem mem_getLast?_cons {item last : Item} {items : List Item}
    (member : last ∈ items.getLast?) : last ∈ (item :: items).getLast? := by
  rw [List.getLast?_cons, member]
  rfl

/-- An interleaving ends as one of the lists does. -/
theorem getLast? (interleaves : Interleaves first second whole) {last : Item}
    (member : last ∈ whole.getLast?) : last ∈ first.getLast? ∨ last ∈ second.getLast? := by
  induction interleaves with
  | done => cases member
  | @left item first second whole rest inductionHypothesis =>
    cases whole with
    | nil =>
      cases rest
      exact .inl member
    | cons next others =>
      rw [List.getLast?_cons_cons] at member
      exact (inductionHypothesis member).imp_left mem_getLast?_cons
  | @right item first second whole rest inductionHypothesis =>
    cases whole with
    | nil =>
      cases rest
      exact .inr member
    | cons next others =>
      rw [List.getLast?_cons_cons] at member
      exact (inductionHypothesis member).imp_right mem_getLast?_cons

end Interleaves

/-! ### The events of a process -/

/-- The line of the output stream that an event brings. -/
def Event.output? : Event → Option String
  | .output line => some line
  | _ => none

/-- The line of the error stream that an event brings. -/
def Event.error? : Event → Option String
  | .error line => some line
  | _ => none

/-- The events of a stream that brings lines and then ends. -/
def sent (wrap : String → Event) (lines : List String) : List Event :=
  lines.map wrap ++ [.closed]

/-- The events of a process whose streams bring the given lines and then end. -/
def Brings (output error : List String) (events : List Event) : Prop :=
  Interleaves (sent .output output) (sent .error error) events

variable {output error : List String} {events : List Event}

theorem Brings.output_eq (brings : Brings output error events) :
    events.filterMap Event.output? = output := by
  have own : (sent .output output).filterMap Event.output? = output := by
    simp [sent, Function.comp_def, Event.output?]
  have others : (sent .error error).filterMap Event.output? = [] := by
    simp [sent, Event.output?]
  have interleaves := brings.filterMap Event.output?
  rw [own, others] at interleaves
  exact interleaves.eq_left

theorem Brings.error_eq (brings : Brings output error events) :
    events.filterMap Event.error? = error := by
  have own : (sent .error error).filterMap Event.error? = error := by
    simp [sent, Function.comp_def, Event.error?]
  have others : (sent .output output).filterMap Event.error? = [] := by
    simp [sent, Event.error?]
  have interleaves := brings.filterMap Event.error?
  rw [own, others] at interleaves
  exact interleaves.eq_right

theorem count_sent {wrap : String → Event} (other : ∀ line, wrap line ≠ .closed)
    (lines : List String) : (sent wrap lines).count .closed = 1 := by
  rw [sent, List.count_append, List.count_singleton_self, Nat.add_eq_right, List.count_eq_zero]
  intro member
  obtain ⟨line, -, same⟩ := List.mem_map.mp member
  exact other line same

theorem not_mem_sent {wrap : String → Event} {event : Event} (other : ∀ line, wrap line ≠ event)
    (goesOn : event ≠ .closed) (lines : List String) : event ∉ sent wrap lines := by
  intro member
  rcases List.mem_append.mp member with line | last
  · obtain ⟨line, -, same⟩ := List.mem_map.mp line
    exact other line same
  · exact goesOn (List.mem_singleton.mp last)

theorem eq_closed_of_mem_getLast? {wrap : String → Event} {lines : List String} {event : Event}
    (member : event ∈ (sent wrap lines).getLast?) : event = .closed := by
  rw [sent, List.getLast?_concat] at member
  exact (Option.some.inj member).symm

/-- The events hold as many ends of streams as there are open streams, and the last event is
one. Every stream is read to its end. -/
structure Closes (streams : Nat) (events : List Event) : Prop where
  count : events.count .closed = streams
  last : ∀ event ∈ events.getLast?, event = .closed
  readable : ∀ error, .broken error ∉ events

theorem Brings.closes (brings : Brings output error events) : Closes streamCount events where
  count := by
    rw [Interleaves.count_eq brings, count_sent fun _ => Event.noConfusion,
      count_sent fun _ => Event.noConfusion]
    rfl
  last event member := by
    rcases Interleaves.getLast? brings member with own | own <;>
    exact eq_closed_of_mem_getLast? own
  readable error := by
    have outside {wrap : String → Event} (other : ∀ line, wrap line ≠ .broken error)
        (lines : List String) : (sent wrap lines).count (.broken error) = 0 :=
      List.count_eq_zero.mpr (not_mem_sent other Event.noConfusion lines)
    rw [← List.count_eq_zero, Interleaves.count_eq brings, outside fun _ => Event.noConfusion,
      outside fun _ => Event.noConfusion]

/-! ### The watch -/

section Watch

variable {State Stop : Type} (consumer : Consumer State Stop)

/-- Hands the lines among events to a consumer until it calls the run off. -/
def Consumer.handle : State → List Event → State × Option Stop
  | state, [] => (state, none)
  | state, .output line :: rest =>
    match consumer.onOutput state line with
    | (state, some cause) => (state, some cause)
    | (state, none) => handle state rest
  | state, .error line :: rest => handle (consumer.onError state line) rest
  | state, .closed :: rest | state, .broken _ :: rest => handle state rest

/-- How the streams of a watch have ended that was not too long: the consumer has handled all
events, or called the run off. -/
inductive Handled : State × Option Stop → State × Streams Stop → Prop where
  | ended (state : State) (clock : Nat) : Handled (state, none) (state, .ended clock)
  | stopped (state : State) (cause : Stop) :
      Handled (state, some cause) (state, .over (.stopped cause))

/-- Some event reaches the queue too late for a clock that the watch may see. -/
def Late (deadline : Option Nat) (arrivals : List Arrival) : Prop :=
  ∃ arrival ∈ arrivals, ∃ clock, isTaken deadline clock arrival = false

theorem Late.cons {deadline : Option Nat} {arrivals : List Arrival}
    (late : Late deadline arrivals) (arrival : Arrival) : Late deadline (arrival :: arrivals) := by
  obtain ⟨other, member, clock, refused⟩ := late
  exact ⟨other, List.mem_cons_of_mem _ member, clock, refused⟩

theorem receive_handled (deadline : Option Nat) (clock : Nat) (state : State) {streams : Nat}
    {arrivals : List Arrival} (closes : Closes streams (arrivals.map Arrival.event)) :
    (receive consumer deadline streams clock state arrivals).2 = silence deadline ∧
        Late deadline arrivals ∨
      Handled (consumer.handle state (arrivals.map Arrival.event))
        (receive consumer deadline streams clock state arrivals) := by
  induction arrivals generalizing streams clock state with
  | nil =>
    obtain rfl : 0 = streams := closes.count
    exact .inr (.ended state clock)
  | cons arrival rest inductionHypothesis =>
    obtain ⟨count, last, readable⟩ := closes
    rw [List.map_cons] at count last readable ⊢
    have later : ∀ event ∈ (rest.map Arrival.event).getLast?, event = .closed :=
      fun event member => last event (Interleaves.mem_getLast?_cons member)
    have still : ∀ error, .broken error ∉ rest.map Arrival.event := fun error member =>
      readable error (List.mem_cons_of_mem _ member)
    cases streams with
    | zero =>
      -- Without a stream there is no end of one, so there is no last event either.
      have outside : .closed ∉ arrival.event :: rest.map Arrival.event := List.count_eq_zero.mp count
      have final := List.getLast?_eq_some_getLast (List.cons_ne_nil arrival.event (rest.map Arrival.event))
      have same := last _ final
      exact absurd (same ▸ List.getLast_mem _) outside
    | succ streams =>
      have extend {result : State × Streams Stop} {handled : State × Option Stop} :
          result.2 = silence deadline ∧ Late deadline rest ∨ Handled handled result →
            result.2 = silence deadline ∧ Late deadline (arrival :: rest) ∨ Handled handled result :=
        Or.imp_left (And.imp_right fun late => late.cons arrival)
      unfold receive
      split
      · cases event : arrival.event with
        | output line =>
          rw [event, List.count_cons_of_ne Event.noConfusion] at count
          rw [Consumer.handle]
          dsimp only
          obtain ⟨next, called⟩ := consumer.onOutput state line
          cases called with
          | some cause => exact .inr (.stopped next cause)
          | none => exact extend (inductionHypothesis _ _ ⟨count, later, still⟩)
        | error line =>
          rw [event, List.count_cons_of_ne Event.noConfusion] at count
          exact extend (inductionHypothesis _ _ ⟨count, later, still⟩)
        | closed =>
          rw [event, List.count_cons_self] at count
          exact extend (inductionHypothesis _ _ ⟨Nat.succ.inj count, later, still⟩)
        | broken error => exact absurd (event ▸ List.mem_cons_self) (readable error)
      · rename_i refused
        exact .inl ⟨rfl, arrival, List.mem_cons_self, clock, eq_false_of_ne_true refused⟩

/-- Whether a watch ended for want of time, not by the process or its consumer. -/
def Outcome.isCutShort : Outcome Stop → Bool
  | .timedOut | .unreachable | .endless => true
  | .exited _ | .stopped _ | .unreadable _ | .unanswered _ => false

/-- How a watch has ended that was not cut short: the consumer called the run off, or it has
handled all events and there is an answer how the process has ended. -/
inductive Settled : State × Option Stop → Option Exit → Watched State Stop → Prop where
  | stopped (state : State) (cause : Stop) (exit : Option Exit) :
      Settled (state, some cause) exit ⟨state, .stopped cause⟩
  | answered (state : State) (exit : Exit) :
      Settled (state, none) (some exit) ⟨state, exit.outcome⟩

theorem silence_cutShort (Stop : Type) (deadline : Option Nat) :
    ∃ outcome : Outcome Stop, silence deadline = .over outcome ∧ outcome.isCutShort = true := by
  cases deadline with
  | none => exact ⟨.endless, rfl, rfl⟩
  | some deadline => exact ⟨.timedOut, rfl, rfl⟩

theorem await_cases (Stop : Type) (deadline : Option Nat) (clock : Nat) (exit : Option Exit) :
    (await deadline clock exit : Outcome Stop).isCutShort = true ∨
      ∃ ended, exit = some ended ∧ (await deadline clock exit : Outcome Stop) = ended.outcome := by
  cases exit with
  | none => cases deadline <;> exact .inl rfl
  | some ended =>
    cases deadline with
    | none => exact .inr ⟨ended, rfl, rfl⟩
    | some deadline =>
      unfold await
      dsimp only
      split
      · exact .inr ⟨ended, rfl, rfl⟩
      · exact .inl rfl

/-- A watch that is not cut short hands all events to the consumer, in the order of the queue. -/
theorem supervise_settled (reading : Nat) (limit : Option Nat) (state : State) {run : Run}
    (closes : Closes streamCount (run.arrivals.map Arrival.event))
    (inTime : (supervise consumer reading limit state run).outcome.isCutShort = false) :
    Settled (consumer.handle state (run.arrivals.map Arrival.event)) run.exit
      (supervise consumer reading limit state run) := by
  unfold supervise at inTime ⊢
  split at inTime
  · rename_i reachable
    rw [if_pos reachable]
    have handled := receive_handled consumer limit 0 state closes
    generalize receive consumer limit streamCount 0 state run.arrivals = received at handled inTime
    generalize consumer.handle state (run.arrivals.map Arrival.event) = result at handled
    obtain ⟨final, streams⟩ := received
    rcases handled with ⟨silent, -⟩ | handled
    · obtain ⟨outcome, ends, cutShort⟩ := silence_cutShort Stop limit
      obtain rfl : streams = .over outcome := silent.trans ends
      exact absurd (cutShort.symm.trans inTime) Bool.noConfusion
    · cases handled with
      | ended final clock =>
        rcases await_cases Stop limit clock run.exit with cutShort | ⟨exit, ended, outcome⟩
        · exact absurd (cutShort.symm.trans inTime) Bool.noConfusion
        · dsimp only
          rw [outcome, ended]
          exact .answered final exit
      | stopped final cause => exact .stopped final cause run.exit
  · cases inTime

end Watch

end YaraReport.Child
