/-
This file writes texts into quotes and proves that they come back: resolving the
escapes of an escaped text gives the text, and an escaped text never holds a
quote that would close it.
-/

import YaraReport.Text.Escape
import YaraReport.Proofs.Token.Written

namespace YaraReport.Text

/-- A character as it is written between quotes. -/
def escapedCharacter : Char → List Char
  | '\\' => ['\\', '\\']
  | '"' => ['\\', '"']
  | '\n' => ['\\', 'n']
  | '\t' => ['\\', 't']
  | character => [character]

/-- A text as it is written between quotes. -/
def escape (text : List Char) : List Char := text.flatMap escapedCharacter

theorem escape_cons (character : Char) (text : List Char) :
    escape (character :: text) = escapedCharacter character ++ escape text := List.flatMap_cons

theorem unescape_cons {character : Char} (plain : character ≠ '\\') (text : List Char) :
    unescape (character :: text) = character :: unescape text := by
  rw [unescape]
  exact fun _ _ slash => absurd slash plain

theorem isClosed_cons {character : Char} (noQuote : character ≠ '"') (plain : character ≠ '\\')
    (text : List Char) : Token.isClosed (character :: text) = Token.isClosed text := by
  rw [Token.isClosed]
  · exact noQuote
  · exact fun slash _ => plain slash
  · exact fun _ _ slash => absurd slash plain

/-- Escapes are undone by resolving them. -/
theorem unescape_escape (text : List Char) : unescape (escape text) = text := by
  induction text with
  | nil => rfl
  | cons character text inductionHypothesis =>
    rw [escape_cons]
    unfold escapedCharacter
    split
    iterate 4
      · show _ :: unescape (escape text) = _
        rw [inductionHypothesis]
    · rename_i plain _ _ _
      rw [List.singleton_append, unescape_cons plain, inductionHypothesis]

/-- An escaped text can stand between quotes. -/
theorem isClosed_escape (text : List Char) : Token.isClosed (escape text) = true := by
  induction text with
  | nil => rfl
  | cons character text inductionHypothesis =>
    rw [escape_cons]
    unfold escapedCharacter
    split
    iterate 4
      · exact inductionHypothesis
    · rename_i plain noQuote _ _
      rw [List.singleton_append, isClosed_cons noQuote plain]
      exact inductionHypothesis

end YaraReport.Text
