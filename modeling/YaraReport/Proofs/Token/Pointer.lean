/-
This file proves that no token is cut out of a line where it cannot be cut. A pointer
reads a line as it is stored. It keeps the byte offset it has come to, looks at what is
left by cutting the line there, and goes on character by character. A cut that does not
lie between characters is a breakdown, and so is a loop that would go on for ever; both
are `none`. A line that is read in this way yields what a lexer yields and never a
breakdown (`Lexer.In.next?`, `Lexer.In.takeRest?`).

The invariant is `Lexer.In`: it says that the offset of a lexer is the number of bytes
of the characters before it, so every offset it comes to lies between characters.
-/

import Mathlib.Data.List.TakeWhile
import YaraReport.Proofs.Loops
import YaraReport.Proofs.Token.Tiling

namespace YaraReport

/-! ### Cuts -/

/-- The part of a text between two byte offsets, which have to be in order and to lie between
characters. -/
def Text.cut? (text : String) (start stop : Nat) : Option String :=
  if start ≤ stop ∧ String.Pos.Raw.IsValid text ⟨start⟩ ∧ String.Pos.Raw.IsValid text ⟨stop⟩ then
    some (Text.between text start stop)
  else none

/-- A place in a stored line. -/
structure Pointer where
  text : String
  line : Nat
  column : Nat
  offset : Nat

namespace Pointer

/-- The number of bytes after a place. -/
def left (pointer : Pointer) : Nat := pointer.text.utf8ByteSize - pointer.offset

def remaining? (pointer : Pointer) : Option String :=
  Text.cut? pointer.text pointer.offset pointer.text.utf8ByteSize

/-- The next character, if the line has one. -/
def peek? (pointer : Pointer) : Option (Option Char) :=
  pointer.remaining?.map fun left => left.toList.head?

def move (pointer : Pointer) (character : Char) : Pointer :=
  { pointer with
    column := pointer.column + 1, offset := pointer.offset + character.utf8Size }

/-- The place after all characters that pass a test. -/
def skip? (test : Char → Bool) : Pointer → Option Pointer :=
  rounds? left fun pointer =>
    pointer.peek?.map fun
      | some character => if test character then .again (pointer.move character) else .done pointer
      | none => .done pointer

def spanTo (start stop : Pointer) : Span := ⟨start.line, start.column, start.offset, stop.offset⟩

/-- Passes one character of a string whose content starts at an offset. A character after a
backslash closes nothing. -/
def closingRound? (start : Nat) (escaped : Bool) (pointer : Pointer) (character : Char) :
    Option (Round (Bool × Pointer) (Option String × Pointer)) :=
  if escaped then some (.again (false, pointer.move character))
  else if character = '\\' then some (.again (true, pointer.move character))
  else if character = '"' then
    (Text.cut? pointer.text start pointer.offset).map fun raw =>
      .done (some raw, pointer.move character)
  else some (.again (false, pointer.move character))

/-- What stands from an offset to the quote that closes a string, and the place after that quote,
which is the end of the line if there is none. -/
def closing? (start : Nat) : Bool × Pointer → Option (Option String × Pointer) :=
  rounds? (fun state => state.2.left) fun (escaped, pointer) =>
    pointer.peek?.bind fun
      | none => some (.done (none, pointer))
      | some character => closingRound? start escaped pointer character

/-- The token that a delimiter is on its own. -/
def delimiter? : Char → Option Token
  | '[' => some .leftBracket
  | ']' => some .rightBracket
  | ',' => some .comma
  | ':' => some .colon
  | '=' => some .equals
  | _ => none

/-- The token that begins with a character at a place, and the place after it. -/
def token? (start : Pointer) (character : Char) : Option (Option Token × Pointer) :=
  match delimiter? character with
  | some token => some (some token, start.move character)
  | none =>
    if character = '"' then
      (closing? (start.move character).offset (false, start.move character)).map fun closed =>
        (closed.1.map .string, closed.2)
    else
      (start.skip? Token.isWordCharacter).bind fun after =>
        (Text.cut? start.text start.offset after.offset).map fun word =>
          (some (Token.ofWord word.toList), after)

/-- Reads one token. -/
def next? (pointer : Pointer) : Option (Except LexError Lexeme × Pointer) :=
  (pointer.skip? Text.isBlank).bind fun start =>
    start.peek?.bind fun
      | none => some (.ok ⟨.empty, start.spanTo start⟩, start)
      | some character =>
        (start.token? character).map fun
          | (some token, after) => (.ok ⟨token, start.spanTo after⟩, after)
          | (none, after) => (.error (.unterminatedString (start.spanTo after)), after)

/-- Takes all that is left as one string. -/
def takeAll? (pointer : Pointer) : Option (Lexeme × Pointer) :=
  pointer.remaining?.bind fun text =>
    (pointer.skip? fun _ => true).map fun after =>
      (⟨.string text, pointer.spanTo after⟩, after)

/-- Takes the rest of the line as one string, without the single space that separates it. -/
def takeRest? (pointer : Pointer) : Option (Lexeme × Pointer) :=
  pointer.peek?.bind fun front =>
    if front = some ' ' then (pointer.move ' ').takeAll? else pointer.takeAll?

def start (line : Nat) (text : String) : Pointer := ⟨text, line, 1, 0⟩

/-- The place of a lexer in a text. -/
def of (text : String) (lexer : Lexer) : Pointer := ⟨text, lexer.line, lexer.column, lexer.offset⟩

end Pointer

namespace Lexer

open Pointer

variable {text : String} {line : Nat} {lexer : Lexer}

theorem advance_nil {rest : List Char} (front : lexer.rest = rest) :
    lexer.advance [] rest = lexer := by
  rw [← front]
  rfl

theorem advance_advance (lexer : Lexer) (taken more rest last : List Char) :
    (lexer.advance taken rest).advance more last = lexer.advance (taken ++ more) last := by
  rw [advance, advance, advance, List.length_append, byteLength_append, Nat.add_assoc,
    Nat.add_assoc]

theorem In.pass (stands : lexer.In line text.toList) {character : Char} {rest : List Char}
    (front : lexer.rest = character :: rest) :
    (lexer.advance [character] rest).In line text.toList :=
  stands.advance front

theorem move_of (text : String) (lexer : Lexer) (character : Char) (rest : List Char) :
    (Pointer.of text lexer).move character =
      Pointer.of text (lexer.advance [character] rest) := rfl

/-- What a lexer takes next can be cut out of its line. -/
theorem In.cut? (stands : lexer.In line text.toList) {taken rest : List Char}
    (front : lexer.rest = taken ++ rest) :
    Text.cut? text lexer.offset (lexer.advance taken rest).offset =
      some (String.ofList taken) := by
  have takes := (stands.takes (show lexer.rest = [] ++ (taken ++ rest) from front)).part
  have takes : Text.between text lexer.offset (lexer.advance taken rest).offset =
      String.ofList taken := takes
  rw [Text.cut?, if_pos, takes]
  exact ⟨Nat.le_add_right _ _, stands.holds.boundary, (stands.advance front).holds.boundary⟩

/-- An offset in the middle of a character would be a breakdown. -/
example : Text.cut? "é" 1 2 = none := by decide

theorem In.remaining? (stands : lexer.In line text.toList) :
    (Pointer.of text lexer).remaining? = some (String.ofList lexer.rest) := by
  have front : lexer.rest = lexer.rest ++ [] := (List.append_nil _).symm
  have ends := (stands.advance front).offset_of_rest_nil rfl
  rw [Pointer.remaining?, ← stands.cut? front, ends]
  rfl

theorem In.peek? (stands : lexer.In line text.toList) :
    (Pointer.of text lexer).peek? = some lexer.rest.head? := by
  rw [Pointer.peek?, stands.remaining?, Option.map_some, String.toList_ofList]

theorem In.left (stands : lexer.In line text.toList) :
    (Pointer.of text lexer).left = byteLength lexer.rest := by
  have total := (stands.advance (List.append_nil lexer.rest).symm).offset_of_rest_nil rfl
  show text.utf8ByteSize - lexer.offset = _
  rw [← total]
  exact Nat.add_sub_cancel_left _ _

/-- What takes characters off a line brings a pointer closer to its end. -/
theorem In.closer (stands : lexer.In line text.toList) {after : Lexer}
    (later : after.In line text.toList) (shortens : after.rest.length < lexer.rest.length) :
    (Pointer.of text after).left < (Pointer.of text lexer).left := by
  rw [stands.left, later.left]
  obtain ⟨taken, whole⟩ := List.suffix_of_suffix_length_le later.holds.suffix stands.holds.suffix
    shortens.le
  rw [← whole, byteLength_append]
  cases taken with
  | nil => rw [← whole, List.nil_append] at shortens; exact absurd shortens (Nat.lt_irrefl _)
  | cons character taken =>
    have counts : 0 < byteLength (character :: taken) :=
      Nat.add_pos_left character.utf8Size_pos _
    omega

theorem In.closer_pass (stands : lexer.In line text.toList) {character : Char} {rest : List Char}
    (front : lexer.rest = character :: rest) :
    (Pointer.of text (lexer.advance [character] rest)).left < (Pointer.of text lexer).left := by
  refine stands.closer (stands.pass front) ?_
  rw [front]
  exact Nat.lt_succ_self _

/-- A pointer passes the characters that a lexer passes. -/
theorem In.skip? (stands : lexer.In line text.toList) (test : Char → Bool) :
    (Pointer.of text lexer).skip? test =
      some (Pointer.of text
        (lexer.advance (lexer.rest.takeWhile test) (lexer.rest.dropWhile test))) := by
  induction front : lexer.rest generalizing lexer with
  | nil =>
    rw [List.takeWhile_nil, List.dropWhile_nil, advance_nil front]
    refine rounds?_of_done ?_
    rw [stands.peek?, front]
    rfl
  | cons character rest inductionHypothesis =>
    cases passes : test character with
    | true =>
      have after := stands.pass front
      refine (rounds?_of_again ?_ (stands.closer_pass front)).trans ?_
      · rw [stands.peek?, front]
        exact congrArg some (if_pos passes)
      · refine (inductionHypothesis after rfl).trans ?_
        rw [advance_advance, List.takeWhile_cons_of_pos passes, List.dropWhile_cons_of_pos passes]
        rfl
    | false =>
      have stops := Bool.eq_false_iff.mp passes
      rw [List.takeWhile_cons_of_neg stops, List.dropWhile_cons_of_neg stops, advance_nil front]
      refine rounds?_of_done ?_
      rw [stands.peek?, front]
      exact congrArg some (if_neg stops)

theorem In.peek?_cons (stands : lexer.In line text.toList) {character : Char} {rest : List Char}
    (front : lexer.rest = character :: rest) :
    (Pointer.of text lexer).peek? = some (some character) := by
  rw [stands.peek?, front]
  rfl

theorem In.peek?_nil (stands : lexer.In line text.toList) (nothing : lexer.rest = []) :
    (Pointer.of text lexer).peek? = some none := by
  rw [stands.peek?, nothing]
  rfl

/-- A character that does not close a string is passed. -/
theorem In.closing?_of_again (stands : lexer.In line text.toList) {character : Char}
    {rest : List Char} (front : lexer.rest = character :: rest) {start : Nat} {escaped : Bool}
    (escapes : Bool)
    (again : closingRound? start escaped (Pointer.of text lexer) character =
      some (.again (escapes, (Pointer.of text lexer).move character))) :
    closing? start (escaped, Pointer.of text lexer) =
      closing? start (escapes, Pointer.of text (lexer.advance [character] rest)) := by
  refine rounds?_of_again ?_ (stands.closer_pass front)
  dsimp only
  rw [stands.peek?_cons front, Option.bind_some]
  exact again

theorem In.closing?_of_quote (stands : lexer.In line text.toList) {rest : List Char}
    (front : lexer.rest = '"' :: rest) {start : Nat} {raw : String}
    (cut : Text.cut? text start lexer.offset = some raw) :
    closing? start (false, Pointer.of text lexer) =
      some (some raw, Pointer.of text (lexer.advance ['"'] rest)) := by
  refine rounds?_of_done ?_
  dsimp only
  rw [stands.peek?_cons front, Option.bind_some]
  exact congrArg (Option.map _) cut

theorem In.closing?_of_nil (stands : lexer.In line text.toList) (nothing : lexer.rest = [])
    (start : Nat) (escaped : Bool) :
    closing? start (escaped, Pointer.of text lexer) = some (none, Pointer.of text lexer) := by
  refine rounds?_of_done ?_
  dsimp only
  rw [stands.peek?_nil nothing, Option.bind_some]

/-- The content of a string of which a part was passed, and the place after it, given what is found
in the rest. -/
def closed (text : String) (lexer : Lexer) (passed rest : List Char) :
    Option (List Char × List Char) → Option String × Pointer
  | some parts => (some (String.ofList (passed ++ parts.1)),
      Pointer.of text (lexer.advance (passed ++ parts.1 ++ ['"']) parts.2))
  | none => (none, Pointer.of text (lexer.advance (passed ++ rest) []))

theorem closed_append (text : String) (lexer : Lexer) (passed more rest : List Char)
    (found : Option (List Char × List Char)) :
    closed text lexer (passed ++ more) rest found =
      closed text lexer passed (more ++ rest)
        (found.map fun parts => (more ++ parts.1, parts.2)) := by
  cases found with
  | none => rw [closed, List.append_assoc]; rfl
  | some parts => rw [closed, List.append_assoc passed more]; rfl

/-- The content of a string is cut out from its beginning to the quote that closes it. -/
theorem In.closing? (stands : lexer.In line text.toList) {passed rest : List Char}
    (front : lexer.rest = passed ++ rest) :
    closing? lexer.offset (false, Pointer.of text (lexer.advance passed rest)) =
      some (closed text lexer passed rest (Token.closingQuote? rest)) := by
  have after := stands.advance front
  -- What is passed grows, so that a cut from the beginning of the string is one from there.
  induction rest using Token.closingQuote?.induct generalizing passed with
  | case1 =>
    rw [after.closing?_of_nil rfl, Token.closingQuote?, closed, List.append_nil]
  | case2 rest =>
    rw [after.closing?_of_quote rfl (stands.cut? front), advance_advance, Token.closingQuote?,
      closed, List.append_nil]
  | case3 next rest inductionHypothesis =>
    have whole : lexer.rest = (passed ++ ['\\', next]) ++ rest := by
      rw [front, List.append_assoc]
      rfl
    have second := after.pass rfl
    have further := inductionHypothesis whole (stands.advance whole)
    rw [closed_append] at further
    rw [after.closing?_of_again rfl true rfl, second.closing?_of_again rfl false rfl,
      advance_advance, advance_advance, Token.closingQuote?]
    exact further
  | case4 character rest noQuote noEscape inductionHypothesis =>
    have whole : lexer.rest = (passed ++ [character]) ++ rest := by
      rw [front, List.append_assoc]
      rfl
    have second := after.pass rfl
    have further := inductionHypothesis whole (stands.advance whole)
    rw [closed_append] at further
    have unfolded : Token.closingQuote? (character :: rest) =
        (Token.closingQuote? rest).map fun parts => (character :: parts.1, parts.2) := by
      rw [Token.closingQuote?]
      · exact noQuote
      · exact noEscape
    rw [unfolded]
    by_cases backslash : character = '\\'
    · -- Only the end of the line can follow, or the escape would have been a case of its own.
      cases rest with
      | cons next rest => exact (noEscape next rest backslash rfl).elim
      | nil =>
        rw [after.closing?_of_again rfl true (by rw [backslash]; rfl),
          second.closing?_of_nil rfl, advance_advance]
        rfl
    · rw [after.closing?_of_again rfl false, advance_advance]
      · exact further
      · rw [closingRound?, if_neg Bool.false_ne_true, if_neg backslash, if_neg noQuote]

/-- A delimiter is read as the token that it is on its own. -/
theorem read?_of_delimiter? {character : Char} {token : Token}
    (delimits : delimiter? character = some token) (rest : List Char) :
    Token.read? (character :: rest) = some (token, rest) ∧ token.written = [character] := by
  unfold delimiter? at delimits
  split at delimits
  case h_6 => cases delimits
  all_goals
    cases delimits
    exact ⟨rfl, rfl⟩

/-- All that begins with another character than a delimiter or a quote is a word. -/
theorem read?_of_not_delimiter {character : Char} (word : delimiter? character = none)
    (unquoted : character ≠ '"') (rest : List Char) :
    Token.read? (character :: rest) =
      some (Token.ofWord ((character :: rest).takeWhile Token.isWordCharacter),
        (character :: rest).dropWhile Token.isWordCharacter) := by
  unfold Token.read?
  split
  case h_1 same => cases same
  case h_7 same => exact absurd (List.cons.inj same).1 unquoted
  case h_8 => rfl
  all_goals
    rename_i same
    cases same
    cases word

/-- The token that is found at the front of a lexer, and the place after it. -/
def found (text : String) (lexer : Lexer) : Option (Token × List Char) → Option Token × Pointer
  | some (token, rest) => (some token, Pointer.of text (lexer.advance token.written rest))
  | none => (none, Pointer.of text (lexer.advance lexer.rest []))

/-- A pointer cuts out the token that a lexer reads. -/
theorem In.token? (stands : lexer.In line text.toList) {character : Char} {rest : List Char}
    (front : lexer.rest = character :: rest) :
    (Pointer.of text lexer).token? character =
      some (found text lexer (Token.read? (character :: rest))) := by
  unfold Pointer.token?
  cases delimits : delimiter? character with
  | some token =>
    obtain ⟨read, written⟩ := read?_of_delimiter? delimits rest
    rw [read, found, written]
    rfl
  | none =>
    by_cases quote : character = '"'
    · subst quote
      have closes := (stands.pass front).closing? (List.nil_append rest).symm
      refine (congrArg (Option.map _) closes).trans ?_
      rw [Token.read?]
      cases Token.closingQuote? rest with
      | none =>
        rw [closed, advance_advance, Option.map_none]
        show some (none, Pointer.of text (lexer.advance ('"' :: rest) [])) = some (none, _)
        rw [← front]
      | some parts =>
        have written :
            (Token.string (String.ofList parts.1)).written = '"' :: (parts.1 ++ ['"']) := by
          rw [Token.written, String.toList_ofList]
        rw [closed, advance_advance, Option.map_some]
        show _ = some (some _, Pointer.of text
          (lexer.advance (Token.string (String.ofList parts.1)).written parts.2))
        rw [written]
        rfl
    · have word : lexer.rest = lexer.rest.takeWhile Token.isWordCharacter ++
          lexer.rest.dropWhile Token.isWordCharacter := List.takeWhile_append_dropWhile.symm
      have cut := stands.cut? word
      rw [if_neg quote, stands.skip?, Option.bind_some, read?_of_not_delimiter delimits quote,
        ← front, found, Token.written_ofWord]
      refine (congrArg (Option.map _) cut).trans ?_
      rw [Option.map_some, String.toList_ofList]

theorem In.skipBlanks? (stands : lexer.In line text.toList) :
    (Pointer.of text lexer).skip? Text.isBlank = some (Pointer.of text lexer.skipBlanks) :=
  stands.skip? Text.isBlank

/-- A pointer reads the token that a lexer reads. -/
theorem In.next? (stands : lexer.In line text.toList) :
    (Pointer.of text lexer).next? = some (lexer.next.1, Pointer.of text lexer.next.2) := by
  have skipped := stands.skipBlanks
  rw [Pointer.next?, stands.skipBlanks?, Option.bind_some, Lexer.next]
  dsimp only
  cases front : lexer.skipBlanks.rest with
  | nil =>
    rw [skipped.peek?_nil front, Option.bind_some, Token.read?]
    dsimp only
    rw [show Token.empty.written = [] from rfl, advance_nil front]
    rfl
  | cons character rest =>
    rw [skipped.peek?_cons front, Option.bind_some]
    dsimp only
    rw [skipped.token? front, Option.map_some]
    cases Token.read? (character :: rest) with
    | none =>
      rw [← front]
      rfl
    | some parts => rfl

theorem In.takeAll? (stands : lexer.In line text.toList) :
    (Pointer.of text lexer).takeAll? =
      some (⟨.string (String.ofList lexer.rest), lexer.spanTo (lexer.advance lexer.rest [])⟩,
        Pointer.of text (lexer.advance lexer.rest [])) := by
  have all : lexer.rest.takeWhile (fun _ => true) = lexer.rest :=
    List.takeWhile_eq_self_iff.mpr fun _ _ => rfl
  have none : lexer.rest.dropWhile (fun _ => true) = [] :=
    List.dropWhile_eq_nil_iff.mpr fun _ _ => rfl
  rw [Pointer.takeAll?, stands.remaining?, Option.bind_some, stands.skip?, all, none]
  rfl

/-- A pointer takes the rest of a line that a lexer takes. -/
theorem In.takeRest? (stands : lexer.In line text.toList) :
    (Pointer.of text lexer).takeRest? =
      some (lexer.takeRest.1, Pointer.of text lexer.takeRest.2) := by
  rw [Pointer.takeRest?, stands.peek?, Option.bind_some]
  by_cases space : lexer.rest.head? = some ' '
  · obtain ⟨rest, front⟩ := List.head?_eq_some_iff.mp space
    rw [if_pos space, move_of text lexer ' ' rest, (stands.pass front).takeAll?, takeRest, front]
    rfl
  · rw [if_neg space, stands.takeAll?, takeRest]
    split
    · rename_i rest front
      exact absurd (congrArg List.head? front) space
    · rfl

end Lexer

end YaraReport
