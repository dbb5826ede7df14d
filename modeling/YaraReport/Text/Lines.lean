/-
This file cuts a sequence of symbols into lines. The same cut serves the bytes a
running tool prints and the characters of a saved capture: a line ends at a
newline, which it does not keep; one carriage return directly before that
newline goes with it; a last line without a newline is kept whole, and nothing
after the last newline is no line.
-/

namespace YaraReport.Text

variable {Symbol : Type} [DecidableEq Symbol]

/-- The stretches that end with `newline`, each without it, and what stands after the last
`newline`. -/
def cutAt (newline : Symbol) : List Symbol → List (List Symbol) × List Symbol
  | [] => ([], [])
  | symbol :: rest =>
    if symbol = newline then ([] :: (cutAt newline rest).1, (cutAt newline rest).2)
    else
      match cutAt newline rest with
      | ([], unfinished) => ([], symbol :: unfinished)
      | (line :: lines, unfinished) => ((symbol :: line) :: lines, unfinished)

/-- A finished line without the one carriage return that stood before its newline. -/
def dropCarriage (carriage : Symbol) (line : List Symbol) : List Symbol :=
  if line.getLast? = some carriage then line.dropLast else line

def finishedLines (newline carriage : Symbol) (text : List Symbol) : List (List Symbol) :=
  (cutAt newline text).1.map (dropCarriage carriage)

/-- All lines of a text, the unfinished last one included. -/
def splitLines (newline carriage : Symbol) (text : List Symbol) : List (List Symbol) :=
  finishedLines newline carriage text ++
    if (cutAt newline text).2.isEmpty then [] else [(cutAt newline text).2]

def lines (text : String) : List String :=
  (splitLines '\n' '\r' text.toList).map String.ofList

end YaraReport.Text
