/-
This file proves that tokens which are written out are read back, whatever
blanks stand around them. Blanks may be missing everywhere but between two words,
which would run together to one; every other token ends by itself or is ended by
the token that follows.

The main statements are `Lexer.tokens_ok_iff`, which says when a whole text is read
as certain tokens, and `tokenize_written`, the round trip.
-/

import Mathlib.Data.List.Chain
import Mathlib.Data.List.TakeWhile
import YaraReport.Proofs.Token.Reading

namespace YaraReport

namespace Token

/-- Some text is read as tokens of which this is one. -/
def IsReadable (token : Token) : Prop :=
  ∃ text lexemes, tokenize text = .ok lexemes ∧ token ∈ lexemes.map Lexeme.token

/-- A token that is not a word begins with a delimiter. -/
theorem written_delimiter {token : Token} (proper : token.Proper) (noWord : token.isWord = false) :
    ∃ character tail, token.written = character :: tail ∧ isDelimiter character = true := by
  cases token with
  | identifier | number => cases noWord
  | string raw => exact ⟨'"', raw.toList ++ ['"'], rfl, rfl⟩
  | equals => exact ⟨'=', [], rfl, rfl⟩
  | comma => exact ⟨',', [], rfl, rfl⟩
  | colon => exact ⟨':', [], rfl, rfl⟩
  | leftBracket => exact ⟨'[', [], rfl, rfl⟩
  | rightBracket => exact ⟨']', [], rfl, rfl⟩
  | empty => exact proper.elim

theorem Reads.proper {text rest : List Char} {tokens : List Token}
    (reads : Reads text tokens rest) : ∀ token ∈ tokens, token.Proper := by
  induction reads with
  | done => exact fun _ member => absurd member List.not_mem_nil
  | next first visible _ inductionHypothesis =>
    intro token member
    rcases List.mem_cons.mp member with rfl | later
    · exact (written_of_read? (head?_dropWhile_isBlank _) first visible).2.1
    · exact inductionHypothesis token later

/-- Nothing but blanks stands before the end of a line. -/
theorem read?_dropWhile_empty_iff (text : List Char) :
    (∃ rest, read? (text.dropWhile Text.isBlank) = some (.empty, rest)) ↔
      ∀ character ∈ text, Text.isBlank character = true := by
  rw [← List.dropWhile_eq_nil_iff]
  constructor
  · rintro ⟨rest, read⟩
    cases front : text.dropWhile Text.isBlank with
    | nil => rfl
    | cons character tail =>
      have visible := head?_dropWhile_isBlank text
      rw [front] at read visible
      exact absurd read (read?_cons_ne_empty (visible character rfl) rest)
  · intro nothing
    exact ⟨[], by rw [nothing]; rfl⟩

end Token

namespace Lexer

open Token

/-! ### Whole texts -/

/-- The tokens of a text are none at its end, and else one before those that follow. -/
theorem tokens_eq (lexer : Lexer) :
    lexer.tokens =
      match lexer.next with
      | (.error error, _) => .error error
      | (.ok lexeme, after) =>
        if lexeme.kind = .empty then .ok []
        else
          match after.tokens with
          | .ok lexemes => .ok (lexeme :: lexemes)
          | .error error => .error error := by
  rw [tokens]
  split
  · rename_i found
    rw [found]
  · rename_i lexeme after found
    by_cases ended : lexeme.kind = .empty
    · rw [dif_pos ended, found]
      exact (if_pos ended).symm
    · rw [dif_neg ended]
      conv_rhs => rw [found]
      exact (if_neg ended).symm

/-- A text is read as certain tokens when it begins with them and only blanks follow. -/
theorem tokens_ok_iff (lexer : Lexer) (tokens : List Token) :
    (∃ lexemes, lexer.tokens = .ok lexemes ∧ lexemes.map Lexeme.token = tokens) ↔
      ∃ rest, Reads lexer.rest tokens rest ∧ ∀ character ∈ rest, Text.isBlank character = true := by
  constructor
  · rintro ⟨lexemes, read, rfl⟩
    fun_induction Lexer.tokens lexer generalizing lexemes with
    | case1 => cases read
    | case2 lexer lexeme after found ended =>
      cases read
      refine ⟨lexer.rest, .done _, (read?_dropWhile_empty_iff _).mp ⟨after.rest, ?_⟩⟩
      rw [read?_of_next found, (kind_eq_empty_iff _).mp ended]
    | case3 lexer lexeme after found visible _ others readOthers inductionHypothesis =>
      cases read
      obtain ⟨rest, reads, blank⟩ := inductionHypothesis others readOthers
      exact ⟨rest, .next (read?_of_next found)
        (fun empty => visible ((kind_eq_empty_iff _).mpr empty)) reads, blank⟩
    | case4 => cases read
  · rintro ⟨rest, reads, blank⟩
    induction tokens generalizing lexer with
    | nil =>
      cases reads
      obtain ⟨left, nothing⟩ := (read?_dropWhile_empty_iff _).mpr blank
      exact ⟨[], by rw [tokens_eq, next_of_read? nothing]; rfl, rfl⟩
    | cons token tokens inductionHypothesis =>
      obtain ⟨middle, first, visible, others⟩ := reads.cons_inv
      obtain ⟨lexeme, after, read, rfl, rfl⟩ := (next_ok_iff lexer _ _).mpr first
      obtain ⟨lexemes, readOthers, rfl⟩ := inductionHypothesis after others
      have goesOn : ¬ lexeme.kind = .empty := fun empty => visible ((kind_eq_empty_iff _).mp empty)
      refine ⟨lexeme :: lexemes, ?_, rfl⟩
      rw [tokens_eq, read]
      dsimp only
      rw [if_neg goesOn, readOthers]

end Lexer

theorem tokenize_ok_iff (text : String) (tokens : List Token) :
    (∃ lexemes, tokenize text = .ok lexemes ∧ lexemes.map Lexeme.token = tokens) ↔
      ∃ rest, Token.Reads text.toList tokens rest ∧
        ∀ character ∈ rest, Text.isBlank character = true :=
  Lexer.tokens_ok_iff (.ofLine text 1) tokens

namespace Token

/-- The tokens that some text is read as are those whose text is what their kind demands. -/
theorem isReadable_iff (token : Token) : token.IsReadable ↔ token.Proper := by
  constructor
  · rintro ⟨text, lexemes, read, member⟩
    obtain ⟨rest, reads, -⟩ := (tokenize_ok_iff text _).mp ⟨lexemes, read, rfl⟩
    exact reads.proper token member
  · intro proper
    have reads : Reads token.shown.toList [token] [] := by
      rw [shown, String.toList_ofList, ← List.append_nil token.written]
      exact .written_append proper (fun _ _ member => by cases member) (.done [])
    obtain ⟨lexemes, read, same⟩ :=
      (tokenize_ok_iff token.shown [token]).mpr ⟨[], reads, List.forall_mem_nil _⟩
    exact ⟨token.shown, lexemes, read, same ▸ List.mem_singleton_self token⟩

/-! ### Tokens and blanks -/

/-- A token and the blanks that are written after it. -/
structure Piece where
  token : Token
  gap : String
  deriving DecidableEq, Repr

def Piece.text (piece : Piece) : String := piece.token.shown ++ piece.gap

/-- Two neighbours do not run together: between two words there is a blank. -/
def Piece.Apart (former latter : Piece) : Prop :=
  former.token.isWord = true → latter.token.isWord = true → former.gap ≠ ""

instance (former latter : Piece) : Decidable (former.Apart latter) :=
  inferInstanceAs (Decidable (_ → _ → _))

theorem toList_join_pieces (pieces : List Piece) :
    (String.join (pieces.map Piece.text)).toList =
      pieces.flatMap fun piece => piece.token.written ++ piece.gap.toList := by
  induction pieces with
  | nil => rfl
  | cons piece pieces inductionHypothesis =>
    rw [List.map_cons, String.join_cons, String.toList_append, inductionHypothesis, Piece.text,
      String.toList_append, shown, String.toList_ofList]
    rfl

variable {pieces : List Piece}

/-- A word ends before its gap and the pieces that follow. -/
theorem endsWord_gap {piece : Piece} (word : piece.token.isWord = true)
    (blank : Text.isBlankLine piece.gap = true)
    (proper : ∀ other ∈ pieces, other.token.Proper)
    (apart : (piece :: pieces).IsChain Piece.Apart) :
    EndsWord (piece.gap.toList ++
      pieces.flatMap fun piece => piece.token.written ++ piece.gap.toList) := by
  cases gap : piece.gap.toList with
  | cons character tail =>
    rw [Text.isBlankLine, gap, List.all_cons, Bool.and_eq_true] at blank
    exact endsWord_of_isBlank blank.1 _
  | nil =>
    cases pieces with
    | nil => exact fun _ member => by cases member
    | cons next others =>
      have noWord : next.token.isWord = false := by
        cases nextWord : next.token.isWord with
        | false => rfl
        | true =>
          have apart := (List.isChain_cons_cons.mp apart).1 word nextWord
          exact absurd (String.toList_eq_nil_iff.mp gap) apart
      obtain ⟨character, tail, front, delimiter⟩ :=
        written_delimiter (proper next List.mem_cons_self) noWord
      rw [List.flatMap_cons, front]
      exact endsWord_of_isDelimiter delimiter _

/-- Tokens are read off the text of their pieces, also behind further blanks. -/
theorem reads_pieces (lead : List Char) (blank : ∀ character ∈ lead, Text.isBlank character = true)
    (proper : ∀ piece ∈ pieces, piece.token.Proper)
    (gaps : ∀ piece ∈ pieces, Text.isBlankLine piece.gap = true)
    (apart : pieces.IsChain Piece.Apart) :
    ∃ rest, Reads (lead ++ pieces.flatMap fun piece => piece.token.written ++ piece.gap.toList)
      (pieces.map Piece.token) rest ∧ ∀ character ∈ rest, Text.isBlank character = true := by
  induction pieces generalizing lead with
  | nil => exact ⟨lead, by rw [List.flatMap_nil, List.append_nil]; exact .done lead, blank⟩
  | cons piece pieces inductionHypothesis =>
    obtain ⟨own, others⟩ := List.forall_mem_cons.mp proper
    obtain ⟨gap, gaps⟩ := List.forall_mem_cons.mp gaps
    obtain ⟨rest, reads, blankRest⟩ :=
      inductionHypothesis piece.gap.toList (List.all_eq_true.mp gap) others gaps apart.tail
    refine ⟨rest, ?_, blankRest⟩
    rw [List.flatMap_cons, List.append_assoc]
    exact .next (Reads.first_written blank own fun word => endsWord_gap word gap others apart)
      (ne_empty_of_proper own) reads

/-- Tokens that are written out are read back, whatever blanks stand before, between and after
them, as long as there are some between two words. -/
theorem tokenize_written (lead : String) (pieces : List Piece)
    (readable : ∀ piece ∈ pieces, piece.token.IsReadable)
    (blank : Text.isBlankLine lead = true)
    (gaps : ∀ piece ∈ pieces, Text.isBlankLine piece.gap = true)
    (apart : pieces.IsChain Piece.Apart) :
    ∃ lexemes, tokenize (lead ++ String.join (pieces.map Piece.text)) = .ok lexemes ∧
      lexemes.map Lexeme.token = pieces.map Piece.token := by
  rw [tokenize_ok_iff, String.toList_append, toList_join_pieces]
  exact reads_pieces lead.toList (List.all_eq_true.mp blank)
    (fun piece member => (isReadable_iff _).mp (readable piece member)) gaps apart

/-- A string that ends in an escaped backslash stands directly before a word, a blank that is not
ASCII parts two words, and a word that only looks like a numeral stands before a delimiter. -/
theorem tokenize_written_tight :
    ∃ lexemes, tokenize "\u3000\"a\\\\\"-0x1F\u00a00xg=é] " = .ok lexemes ∧
      lexemes.map Lexeme.token =
        [.string "a\\\\", .number "-0x1F", .identifier "0xg", .equals, .identifier "é",
          .rightBracket] := by
  have round := tokenize_written "\u3000"
    [⟨.string "a\\\\", ""⟩, ⟨.number "-0x1F", "\u00a0"⟩, ⟨.identifier "0xg", ""⟩, ⟨.equals, ""⟩,
      ⟨.identifier "é", ""⟩, ⟨.rightBracket, " "⟩]
    (fun piece member => (isReadable_iff _).mpr ?_) (by decide) (by decide) (by decide)
  · exact round
  · revert piece
    decide

end Token

end YaraReport
