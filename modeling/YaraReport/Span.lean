/-
This file defines where a piece of a line stands: the line's number in its
stream, the column of the first character and the byte offsets of both ends
within the line. Lines and columns count from one, offsets from zero.
-/

namespace YaraReport

structure Span where
  line : Nat
  /-- The column of the first character, from one. -/
  column : Nat
  /-- The byte offset of the first character. -/
  start : Nat
  stop : Nat
  deriving DecidableEq, Repr, Inhabited

namespace Span

def single (line column offset : Nat) : Span :=
  ⟨line, column, offset, offset + 1⟩

/-- The smallest span over two spans. The column follows the first one unless both stand on
one line. -/
def merge (first second : Span) : Span where
  line := min first.line second.line
  column := if first.line = second.line then min first.column second.column else first.column
  start := min first.start second.start
  stop := max first.stop second.stop

end Span

end YaraReport
