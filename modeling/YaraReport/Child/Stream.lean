/-
This file defines what a child process sends to the one who watches it. Each of
its two output streams is cut into lines, each line is decoded on its own, and
the lines of both streams arrive in one queue, where the end of a stream is an
event of its own, and so is a failure to read on. An arrival says when its event
reaches the queue and how long the watcher is busy with it; both are facts of the
surroundings that the program does not choose.
-/

import YaraReport.Child.Status
import YaraReport.SystemError
import YaraReport.Text.Lines
import YaraReport.Text.Utf8

namespace YaraReport.Child

def newline : UInt8 := 10

def carriage : UInt8 := 13

/-- The lines of a stream that ends after the given bytes. -/
def lines (bytes : List UInt8) : List String :=
  (Text.splitLines newline carriage bytes).map Text.Utf8.toStringLossy

/-- The lines of a stream that stays open after the given bytes. -/
def finishedLines (bytes : List UInt8) : List String :=
  (Text.finishedLines newline carriage bytes).map Text.Utf8.toStringLossy

inductive Event where
  | output (line : String)
  | error (line : String)
  | closed
  | broken (error : SystemError)
  deriving DecidableEq, Repr

/-- An event in the queue. Times are in nanoseconds after the start of the process. -/
structure Arrival where
  time : Nat
  event : Event
  handling : Nat
  deriving DecidableEq, Repr

/-- From when on the question how the process has ended is answered, and the answer. -/
structure Exit where
  time : Nat
  answer : Except SystemError ExitStatus

/-- What can be seen of a process from outside. -/
structure Run where
  /-- The events in the order of the queue. -/
  arrivals : List Arrival
  /-- The end of the process, if it ever ends. -/
  exit : Option Exit
  /-- What reaches the queue earlier is taken off earlier. -/
  ordered : arrivals.Pairwise fun first second => first.time ≤ second.time

/-! ### Processes that print and end -/

/-- What a process does once it has printed. -/
inductive Ending where
  | exits (status : ExitStatus)
  | lingersOpen
  | lingersClosed
  deriving DecidableEq, Repr

/-- The events of a process that prints and then does as its ending says. -/
def printed (output error : List UInt8) : Ending → List Event
  | .lingersOpen =>
    (finishedLines output).map Event.output ++ (finishedLines error).map Event.error
  | .exits _ | .lingersClosed =>
    (lines output).map Event.output ++ [.closed] ++ ((lines error).map Event.error ++ [.closed])

/-- A process that prints everything at one moment and then does as its ending says. -/
def Run.printing (time : Nat) (output error : List UInt8) (ending : Ending) : Run where
  arrivals := (printed output error ending).map fun event => ⟨time, event, 0⟩
  exit :=
    match ending with
    | .exits status => some ⟨time, .ok status⟩
    | .lingersOpen | .lingersClosed => none
  ordered := by
    rw [List.pairwise_map]
    exact List.pairwise_of_forall fun _ _ => Nat.le_refl time

end YaraReport.Child
