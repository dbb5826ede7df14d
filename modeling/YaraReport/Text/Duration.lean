/-
This file writes a span of time, given in nanoseconds, in its largest fitting
unit: seconds, milliseconds, microseconds or nanoseconds, with the decimals that
are left and none that are zero at the end.
-/

namespace YaraReport.Text

def second : Nat := 1000000000

def millisecond : Nat := 1000000

def microsecond : Nat := 1000

/-- The decimals of a remainder below `10 ^ places`, without zeros at the end. -/
def decimals (places remainder : Nat) : List Char :=
  let digits := Nat.toDigits 10 remainder
  let padded := List.replicate (places - digits.length) '0' ++ digits
  (padded.reverse.dropWhile (· = '0')).reverse

/-- A multiple of a unit of `10 ^ places` nanoseconds, with its decimals. -/
def inUnit (nanoseconds places : Nat) (unit : String) : String :=
  let size := Nat.pow 10 places
  let fraction := decimals places (nanoseconds % size)
  toString (nanoseconds / size) ++
    (if fraction.isEmpty then "" else "." ++ String.ofList fraction) ++ unit

def duration (nanoseconds : Nat) : String :=
  if second ≤ nanoseconds then inUnit nanoseconds 9 "s"
  else if millisecond ≤ nanoseconds then inUnit nanoseconds 6 "ms"
  else if microsecond ≤ nanoseconds then inUnit nanoseconds 3 "µs"
  else inUnit nanoseconds 0 "ns"

end YaraReport.Text
