/-
This file reads tokens off the front of a line. The lexer hands out one token at
a time and keeps what it has not read, so a caller can stop anywhere and take
the rest of the line as it is. Blanks before a token are passed over, and at the
end of the line the lexer yields the empty token for ever.

The main statement is `Lexer.next_shortens`: every token but the empty one takes
at least one character off the line, so any loop over tokens ends.
-/

import YaraReport.Text.Blank
import YaraReport.Violation

namespace YaraReport

namespace Token

/-- What stands before the closing quote of a string and what stands after it. A backslash
takes the next character with it, so an escaped quote does not close the string. -/
def closingQuote? : List Char → Option (List Char × List Char)
  | [] => none
  | '"' :: rest => some ([], rest)
  | '\\' :: next :: rest =>
    (closingQuote? rest).map fun parts => ('\\' :: next :: parts.1, parts.2)
  | character :: rest =>
    (closingQuote? rest).map fun parts => (character :: parts.1, parts.2)

def isWordCharacter (character : Char) : Bool :=
  !Text.isBlank character && !isDelimiter character

/-- The token at the front of a text that does not begin with a blank, and what follows it;
nothing when a string is never closed. -/
def read? : List Char → Option (Token × List Char)
  | [] => some (.empty, [])
  | '[' :: rest => some (.leftBracket, rest)
  | ']' :: rest => some (.rightBracket, rest)
  | ',' :: rest => some (.comma, rest)
  | ':' :: rest => some (.colon, rest)
  | '=' :: rest => some (.equals, rest)
  | '"' :: rest =>
    (closingQuote? rest).map fun parts => (.string (String.ofList parts.1), parts.2)
  | text => some (ofWord (text.takeWhile isWordCharacter), text.dropWhile isWordCharacter)

end Token

/-- A place in a line and what has not been read yet. -/
structure Lexer where
  line : Nat
  /-- The column of the next character. -/
  column : Nat
  /-- The byte offset of the next character. -/
  offset : Nat
  rest : List Char
  deriving DecidableEq, Repr

namespace Lexer

def byteLength (text : List Char) : Nat :=
  text.foldr (fun character count => character.utf8Size + count) 0

def ofLine (text : String) (line : Nat) : Lexer :=
  ⟨line, 1, 0, text.toList⟩

def advance (lexer : Lexer) (taken rest : List Char) : Lexer :=
  ⟨lexer.line, lexer.column + taken.length, lexer.offset + byteLength taken, rest⟩

def skipBlanks (lexer : Lexer) : Lexer :=
  lexer.advance (lexer.rest.takeWhile Text.isBlank) (lexer.rest.dropWhile Text.isBlank)

def spanTo (start stop : Lexer) : Span :=
  ⟨start.line, start.column, start.offset, stop.offset⟩

/-- Reads one token. A string without closing quote takes the whole rest of the line. -/
def next (lexer : Lexer) : Except LexError Lexeme × Lexer :=
  let start := lexer.skipBlanks
  match Token.read? start.rest with
  | some (token, rest) =>
    let after := start.advance token.written rest
    (.ok ⟨token, start.spanTo after⟩, after)
  | none =>
    let after := start.advance start.rest []
    (.error (.unterminatedString (start.spanTo after)), after)

/-- Takes the rest of the line as one string, without the single space that separates it. -/
def takeRest (lexer : Lexer) : Lexeme × Lexer :=
  let start :=
    match lexer.rest with
    | ' ' :: rest => lexer.advance [' '] rest
    | _ => lexer
  let after := start.advance start.rest []
  (⟨.string (String.ofList start.rest), start.spanTo after⟩, after)

/-! ### Every token but the empty one is taken off the line -/

theorem dropWhile_length_le {Item : Type} (test : Item → Bool) (items : List Item) :
    (items.dropWhile test).length ≤ items.length :=
  (List.dropWhile_suffix test).length_le

theorem closingQuote?_shortens (text : List Char) (parts : List Char × List Char)
    (closed : Token.closingQuote? text = some parts) : parts.2.length < text.length := by
  induction text using Token.closingQuote?.induct generalizing parts with
  | case1 => simp [Token.closingQuote?] at closed
  | case2 rest =>
    simp only [Token.closingQuote?, Option.some.injEq] at closed
    subst closed
    simp
  | case3 next rest inductionHypothesis =>
    simp only [Token.closingQuote?, Option.map_eq_some_iff] at closed
    obtain ⟨inner, found, rfl⟩ := closed
    have shorter := inductionHypothesis inner found
    simp only [List.length_cons]
    omega
  | case4 character rest noQuote noEscape inductionHypothesis =>
    rw [Token.closingQuote?] at closed
    · simp only [Option.map_eq_some_iff] at closed
      obtain ⟨inner, found, rfl⟩ := closed
      have shorter := inductionHypothesis inner found
      simp only [List.length_cons]
      omega
    · exact noQuote
    · exact noEscape

/-- A token read off a text that does not begin with a blank is empty or takes a character. -/
theorem read?_shortens (text : List Char) (token : Token) (rest : List Char)
    (visible : ∀ character tail, text = character :: tail → Text.isBlank character = false)
    (read : Token.read? text = some (token, rest)) (visibleToken : token.kind ≠ .empty) :
    rest.length < text.length := by
  unfold Token.read? at read
  split at read
  · simp only [Option.some.injEq, Prod.mk.injEq] at read
    exact absurd (by rw [← read.1]; rfl) visibleToken
  all_goals try
    simp only [Option.some.injEq, Prod.mk.injEq] at read
    obtain ⟨_, rfl⟩ := read
    simp
  · simp only [Option.map_eq_some_iff, Prod.mk.injEq] at read
    obtain ⟨parts, closed, _, rfl⟩ := read
    have shorter := closingQuote?_shortens _ _ closed
    simp only [List.length_cons]
    omega
  · rename_i noEnd noOpen noClose noComma noColon noEquals noQuote
    cases text with
    | nil => exact absurd rfl noEnd
    | cons character tail =>
      have word : Token.isWordCharacter character = true := by
        simp only [Token.isWordCharacter, visible character tail rfl, Bool.not_false,
          Bool.true_and, Bool.not_eq_true']
        unfold Token.isDelimiter
        split <;> simp_all
      simp only [Option.some.injEq, Prod.mk.injEq] at read
      rw [← read.2, List.dropWhile_cons_of_pos word, List.length_cons]
      exact Nat.lt_succ_of_le (dropWhile_length_le _ _)

/-- What a lexer stands before after the blanks is no blank. -/
theorem skipBlanks_visible (lexer : Lexer) (character : Char) (tail : List Char)
    (front : lexer.skipBlanks.rest = character :: tail) : Text.isBlank character = false := by
  have visible := List.head?_dropWhile_not Text.isBlank lexer.rest
  simp only [skipBlanks, advance] at front
  rw [front] at visible
  simpa using visible

/-- Every token but the empty one takes at least one character off the line. -/
theorem next_shortens (lexer : Lexer) (lexeme : Lexeme) (after : Lexer)
    (read : lexer.next = (.ok lexeme, after)) (visible : lexeme.kind ≠ .empty) :
    after.rest.length < lexer.rest.length := by
  dsimp only [next] at read
  split at read
  · rename_i token rest found
    simp only [Prod.mk.injEq, Except.ok.injEq] at read
    obtain ⟨rfl, rfl⟩ := read
    have shorter := read?_shortens _ _ _ (skipBlanks_visible lexer) found visible
    have blanks := dropWhile_length_le Text.isBlank lexer.rest
    simp only [skipBlanks, advance] at shorter ⊢
    omega
  · simp at read

end Lexer

def Lexer.tokens (lexer : Lexer) : Except LexError (List Lexeme) :=
  match found : lexer.next with
  | (.error error, _) => .error error
  | (.ok lexeme, after) =>
    if visible : lexeme.kind = .empty then .ok []
    else
      have := next_shortens lexer lexeme after found visible
      match after.tokens with
      | .ok lexemes => .ok (lexeme :: lexemes)
      | .error error => .error error
termination_by lexer.rest.length

def tokenize (text : String) : Except LexError (List Lexeme) :=
  (Lexer.ofLine text 1).tokens

end YaraReport
