/-
This file reads a match line, the line

    0xOFFSET:$identifier: DATA

The data is kept as it is printed: one space before it belongs to the format,
all else to the data.
-/

import YaraReport.Token.Cursor
import YaraReport.Rule

namespace YaraReport.MatchLine

def marker : List Char := ['0', 'x']

def isMarked (line : String) : Bool := marker.isPrefixOf line.toList

def shape : List Token.Kind := [.number, .colon, .identifier, .colon]

/-- The machine word that a numeral without minus sign denotes. -/
def offset? (text : String) : Option UInt64 :=
  match Text.unsigned? text.toList with
  | some value => if value < UInt64.size then some (UInt64.ofNat value) else none
  | none => none

/-- The offset that a token stands for. -/
def decodeOffset (lexeme : Lexeme) : Except Violation UInt64 :=
  match offset? lexeme.token.text with
  | some value => .ok value
  | none => .error (.numericDecode lexeme.token.text lexeme.span)

/-- The only violation of decoding an offset is that it does not fit. -/
theorem decodeOffset_error {lexeme : Lexeme} {violation : Violation}
    (failed : decodeOffset lexeme = .error violation) :
    violation = .numericDecode lexeme.token.text lexeme.span := by
  unfold decodeOffset at failed
  split at failed
  · cases failed
  · exact (Except.error.inj failed).symm

/-- Reads a match line as the identifier of a string and a match of it. -/
def read (line : Nat) (text : String) : Except Violation (String × Match) :=
  match (Lexer.ofLine text line).expectAll shape with
  | (.error violation, _) => .error violation
  | (.ok [offset, _, identifier, _], after) =>
    match decodeOffset offset with
    | .error violation => .error violation
    | .ok value => .ok (identifier.token.text, ⟨value, after.takeRest.1.token.text⟩)
  | (.ok _, _) => .error .aborted

end YaraReport.MatchLine
