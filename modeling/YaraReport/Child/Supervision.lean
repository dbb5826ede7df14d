/-
This file watches a child process until it ends or its time is up. The watcher
takes events off the queue one by one; it waits for the next event until the
deadline at the latest, but an event that is already queued is taken whatever the
clock says. When both streams have ended it asks at short intervals whether the
process has ended too.
-/

import YaraReport.Child.Stream
import YaraReport.Text.Duration

namespace YaraReport.Child

/-- Someone who takes the lines of a process. -/
structure Consumer (State Stop : Type) where
  onOutput : State → String → State × Option Stop
  onError : State → String → State

/-- How the watch over a process ends. -/
inductive Outcome (Stop : Type) where
  | exited (status : ExitStatus)
  | timedOut
  | stopped (cause : Stop)
  | unreachable
  | endless
  /-- What the process prints could not be read on. -/
  | unreadable (error : SystemError)
  /-- How the process has ended could not be found out. -/
  | unanswered (error : SystemError)
  deriving DecidableEq, Repr

/-- What a watch over a process comes to. -/
structure Watched (State Stop : Type) where
  state : State
  outcome : Outcome Stop

/-! ### The streams -/

/-- Whether the watcher still takes an arrival: it is queued already, or reaches the queue by
the deadline. -/
def isTaken (deadline : Option Nat) (clock : Nat) (arrival : Arrival) : Bool :=
  match deadline with
  | some deadline => arrival.time ≤ max clock deadline
  | none => true

/-- What is left to do once no more events are taken. -/
inductive Streams (Stop : Type) where
  /-- Both streams have ended; the clock shows the given time. -/
  | ended (clock : Nat)
  | over (outcome : Outcome Stop)
  deriving DecidableEq, Repr

def silence {Stop : Type} (deadline : Option Nat) : Streams Stop :=
  .over (if deadline.isSome then .timedOut else .endless)

/-- Takes events off the queue until the given number of streams has ended. -/
def receive {State Stop : Type} (consumer : Consumer State Stop) (deadline : Option Nat) :
    Nat → Nat → State → List Arrival → State × Streams Stop
  | 0, clock, state, _ => (state, .ended clock)
  | _ + 1, _, state, [] => (state, silence deadline)
  | streams + 1, clock, state, arrival :: rest =>
    if isTaken deadline clock arrival then
      let later := max clock arrival.time + arrival.handling
      match arrival.event with
      | .output line =>
        match consumer.onOutput state line with
        | (state, some cause) => (state, .over (.stopped cause))
        | (state, none) => receive consumer deadline (streams + 1) later state rest
      | .error line =>
        receive consumer deadline (streams + 1) later (consumer.onError state line) rest
      | .closed => receive consumer deadline streams later state rest
      | .broken error => (state, .over (.unreadable error))
    else (state, silence deadline)

/-! ### The end of the process -/

/-- The time between two questions whether the process has ended. -/
def pollInterval : Nat := 10 * Text.millisecond

/-- The time of the last question, which is the first one not before the deadline. -/
def lastPoll (clock deadline : Nat) : Nat :=
  clock + pollInterval * ((deadline - clock + pollInterval - 1) / pollInterval)

/-- What a watch comes to once the question how its process has ended is answered. -/
def Exit.outcome {Stop : Type} (exit : Exit) : Outcome Stop :=
  match exit.answer with
  | .ok status => .exited status
  | .error error => .unanswered error

/-- Waits for the end of a process whose streams have ended. -/
def await {Stop : Type} (deadline : Option Nat) (clock : Nat) : Option Exit → Outcome Stop
  | none => if deadline.isSome then .timedOut else .endless
  | some exit =>
    match deadline with
    | none => exit.outcome
    | some deadline => if exit.time ≤ lastPoll clock deadline then exit.outcome else .timedOut

/-! ### The whole watch -/

def streamCount : Nat := 2

/-- Whether the clock can show the moment that lies a time limit after its present reading: the
clock counts seconds in a signed machine word. -/
def isReachable (reading limit : Nat) : Bool :=
  (reading + limit) / Text.second < 0x8000000000000000

/-- Watches a process that starts when the clock shows `reading`. -/
def supervise {State Stop : Type} (consumer : Consumer State Stop) (reading : Nat)
    (limit : Option Nat) (state : State) (run : Run) : Watched State Stop :=
  if limit.all (isReachable reading) then
    match receive consumer limit streamCount 0 state run.arrivals with
    | (state, .over outcome) => ⟨state, outcome⟩
    | (state, .ended clock) => ⟨state, await limit clock run.exit⟩
  else ⟨state, .unreachable⟩

end YaraReport.Child
