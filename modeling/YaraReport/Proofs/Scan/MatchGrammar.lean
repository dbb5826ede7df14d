/-
This file describes match lines and proves that a reader in the middle of a rule
accepts exactly those. A match line is the marker `0x` with hexadecimal digits, a
colon, the name of a string, another colon and the data, with blanks allowed
around the first colon and the name. The data is kept as it is printed, but for
one space before it.

The lexer decides where a number and a name end before anything asks for a
colon, so the format is tied to tokens first: `Shape.reads` and
`exists_shape_of_reads` are the two directions of that.
-/

import YaraReport.Proofs.Scan.Listing
import YaraReport.Proofs.Text.Places

namespace YaraReport

open Token (Reads IsName EndsWord)

namespace MatchLine

/-! ### The format -/

/-- The parts of a match line. -/
structure Shape where
  /-- The hexadecimal digits after the marker. -/
  digits : List Char
  beforeColon : List Char
  beforeName : List Char
  /-- The name of the string. -/
  name : List Char
  afterName : List Char
  /-- What follows the second colon. -/
  data : List Char

namespace Shape

def numeral (shape : Shape) : List Char := marker ++ shape.digits

/-- The line that the parts make up. -/
def written (shape : Shape) : List Char :=
  shape.numeral ++ (shape.beforeColon ++ ':' ::
    (shape.beforeName ++ (shape.name ++ (shape.afterName ++ ':' :: shape.data))))

/-- The number that the digits denote. -/
def number (shape : Shape) : Nat := Text.positional 16 (shape.digits.filterMap Text.hexDigit?)

/-- The data without the one space that may stand before it. -/
def value (shape : Shape) : List Char :=
  match shape.data with
  | ' ' :: rest => rest
  | data => data

/-- The parts of a line that follows the format. -/
structure WellFormed (shape : Shape) : Prop where
  nonempty : shape.digits ≠ []
  digits : ∀ character ∈ shape.digits, (Text.hexDigit? character).isSome = true
  beforeColon : ∀ character ∈ shape.beforeColon, Text.isBlank character = true
  beforeName : ∀ character ∈ shape.beforeName, Text.isBlank character = true
  name : IsName shape.name
  afterName : ∀ character ∈ shape.afterName, Text.isBlank character = true

/-- The tokens before the data. -/
def tokens (shape : Shape) : List Token :=
  [.number (String.ofList shape.numeral), .colon, .identifier (String.ofList shape.name), .colon]

end Shape

/-! ### Match lines and their tokens -/

theorem toNat_of_hexDigit? {character : Char}
    (digit : (Text.hexDigit? character).isSome = true) :
    48 ≤ character.toNat ∧ character.toNat ≤ 57 ∨ 97 ≤ character.toNat ∧ character.toNat ≤ 102 ∨
      65 ≤ character.toNat ∧ character.toNat ≤ 70 := by
  simp only [Text.hexDigit?, Bool.and_eq_true, decide_eq_true_eq] at digit
  split at digit
  · rename_i range
    exact .inl range
  · split at digit
    · rename_i range
      exact .inr (.inl range)
    · split at digit
      · rename_i range
        exact .inr (.inr range)
      · cases digit

/-- Hexadecimal digits are parts of words. -/
theorem isWordCharacter_of_hexDigit? {character : Char}
    (digit : (Text.hexDigit? character).isSome = true) :
    Token.isWordCharacter character = true := by
  have range := toNat_of_hexDigit? digit
  have visible : Text.isBlank character = false := by
    simp only [Text.isBlank, Text.blankRanges, List.any_cons, List.any_nil, Bool.or_false,
      Bool.or_eq_false_iff, Bool.and_eq_false_iff, decide_eq_false_iff_not]
    omega
  have plain : Token.isDelimiter character = false := by
    unfold Token.isDelimiter
    split
    iterate 6 exact absurd range (by decide)
    rfl
  rw [Token.isWordCharacter, visible, plain]
  rfl

theorem endsWord_before_colon {gap : List Char}
    (blank : ∀ character ∈ gap, Text.isBlank character = true) (rest : List Char) :
    EndsWord (gap ++ ':' :: rest) := by
  cases gap with
  | nil => exact Token.endsWord_of_isDelimiter rfl rest
  | cons character others =>
    exact Token.endsWord_of_isBlank (blank character List.mem_cons_self) _

theorem read?_gap_colon {gap : List Char} (blank : ∀ character ∈ gap, Text.isBlank character = true)
    (rest : List Char) :
    Token.read? ((gap ++ ':' :: rest).dropWhile Text.isBlank) = some (.colon, rest) :=
  have proper : Token.colon.Proper := trivial
  Reads.first_written blank proper fun word => absurd word Bool.false_ne_true

namespace Shape

variable {shape : Shape}

theorem WellFormed.hex?_digits (wellFormed : shape.WellFormed) :
    Text.hex? shape.digits = some shape.number :=
  (Text.digitsValue?_eq_some_iff 16 shape.digits shape.number).mpr
    ⟨wellFormed.nonempty, wellFormed.digits, rfl⟩

theorem WellFormed.proper_numeral (wellFormed : shape.WellFormed) :
    (Token.number (String.ofList shape.numeral)).Proper := by
  rw [Token.Proper, String.toList_ofList]
  refine ⟨⟨List.cons_ne_nil _ _, ?_⟩, ?_⟩
  · refine List.forall_mem_cons.mpr ⟨by decide, List.forall_mem_cons.mpr ⟨by decide, ?_⟩⟩
    exact fun character member => isWordCharacter_of_hexDigit? (wellFormed.digits character member)
  · have value : Text.unsigned? shape.numeral = some shape.number := wellFormed.hex?_digits
    have signed : Text.signed? shape.numeral = some (shape.number : Int) := by
      rw [Text.signed?, value]
      · rfl
      · exact fun _ front => by cases front
    rw [Token.isNumeral, signed]
    rfl

/-- A line that follows the format begins with the tokens of a match line. -/
theorem WellFormed.reads (wellFormed : shape.WellFormed) :
    Reads shape.written shape.tokens shape.data := by
  have proper := wellFormed.proper_numeral
  have name : (Token.identifier (String.ofList shape.name)).Proper := by
    rw [Token.Proper, String.toList_ofList]
    exact wellFormed.name
  have second : Reads (shape.afterName ++ ':' :: shape.data) [.colon] shape.data :=
    .single (read?_gap_colon wellFormed.afterName shape.data) Token.noConfusion
  have named := Reads.next (Reads.first_written wellFormed.beforeName name
    fun _ => endsWord_before_colon wellFormed.afterName shape.data) Token.noConfusion second
  have first := Reads.next (read?_gap_colon wellFormed.beforeColon _) Token.noConfusion named
  have whole := Reads.written_append proper
    (fun _ => endsWord_before_colon wellFormed.beforeColon _) first
  have numeral : (Token.number (String.ofList shape.numeral)).written = shape.numeral :=
    String.toList_ofList
  have nameWritten : (Token.identifier (String.ofList shape.name)).written = shape.name :=
    String.toList_ofList
  rw [numeral, nameWritten] at whole
  exact whole

end Shape

/-- The first of the tokens that a text begins with stands after blanks. -/
theorem exists_gap_of_reads {text rest : List Char} {token : Token} {tokens : List Token}
    (reads : Reads text (token :: tokens) rest) :
    ∃ gap middle, (∀ character ∈ gap, Text.isBlank character = true) ∧
      text = gap ++ (token.written ++ middle) ∧ token.Proper ∧
      (token.isWord = true → EndsWord middle) ∧ Reads middle tokens rest := by
  obtain ⟨middle, first, visible, others⟩ := reads.cons_inv
  obtain ⟨written, proper, ends⟩ :=
    Token.written_of_read? (Token.head?_dropWhile_isBlank text) first visible
  refine ⟨text.takeWhile Text.isBlank, middle, ?_, ?_, proper, ends, others⟩
  · exact fun character member => List.all_eq_true.mp List.all_takeWhile character member
  · rw [← written, List.takeWhile_append_dropWhile]

/-- A number at the front of a text that begins with the marker is the marker with digits. -/
theorem exists_digits {numeral : String} {gap middle text : List Char}
    (marked : marker.isPrefixOf text = true)
    (blank : ∀ character ∈ gap, Text.isBlank character = true)
    (front : text = gap ++ (numeral.toList ++ middle)) (proper : (Token.number numeral).Proper)
    (ends : EndsWord middle) :
    ∃ digits, text = marker ++ digits ++ middle ∧ digits ≠ [] ∧
      ∀ character ∈ digits, (Text.hexDigit? character).isSome = true := by
  obtain ⟨tail, rfl⟩ := List.isPrefixOf_iff_prefix.mp marked
  obtain ⟨⟨nonempty, -⟩, numeric⟩ := proper
  cases gap with
  | cons character others =>
    obtain rfl : '0' = character := (List.cons.inj front).1
    exact absurd (blank '0' List.mem_cons_self) (by decide)
  | nil =>
    rw [List.nil_append] at front
    rw [front]
    rcases word : numeral.toList with _ | ⟨zero, _ | ⟨letter, digits⟩⟩
    · exact absurd word nonempty
    · rw [word] at front
      cases front
      exact absurd (ends 'x' rfl) (by decide)
    · rw [word] at front numeric
      cases front
      refine ⟨digits, rfl, ?_⟩
      rw [Token.isNumeral, Text.signed?] at numeric
      · cases unsigned : Text.unsigned? ('0' :: 'x' :: digits) with
        | none =>
          rw [unsigned] at numeric
          cases numeric
        | some number =>
          obtain ⟨some, known, -⟩ := (Text.digitsValue?_eq_some_iff 16 digits number).mp unsigned
          exact ⟨some, known⟩
      · exact fun _ minus => by cases minus

/-- A marked line that begins with the tokens of a match line follows the format. -/
theorem exists_shape_of_reads {numeral name : String} {text rest : List Char}
    (marked : marker.isPrefixOf text = true)
    (reads : Reads text [.number numeral, .colon, .identifier name, .colon] rest) :
    ∃ shape : Shape, shape.WellFormed ∧ text = shape.written := by
  obtain ⟨_, _, blank, front, proper, ends, reads⟩ := exists_gap_of_reads reads
  obtain ⟨digits, whole, nonempty, known⟩ := exists_digits marked blank front proper (ends rfl)
  obtain ⟨beforeColon, _, blankColon, rfl, -, -, reads⟩ := exists_gap_of_reads reads
  obtain ⟨beforeName, _, blankName, rfl, bareword, -, reads⟩ := exists_gap_of_reads reads
  obtain ⟨afterName, data, blankAfter, rfl, -, -, -⟩ := exists_gap_of_reads reads
  exact ⟨⟨digits, beforeColon, beforeName, name.toList, afterName, data⟩,
    ⟨nonempty, known, blankColon, blankName, bareword, blankAfter⟩, whole⟩

/-! ### Reading match lines -/

theorem eq_colon_of_kind {token : Token} (colon : token.kind = .colon) : token = .colon := by
  cases token with
  | colon => rfl
  | _ => cases colon

/-- A marked line off which the tokens of a match line are read follows the format. -/
theorem exists_shape {line : Nat} {text : String} (marked : isMarked text = true)
    {lexemes : List Lexeme} {after : Lexer}
    (read : (Lexer.ofLine text line).expectAll shape = (.ok lexemes, after)) :
    ∃ shape : Shape, shape.WellFormed ∧ text.toList = shape.written := by
  obtain ⟨reads, kinds⟩ := Lexer.reads_of_expectAll read (by decide)
  obtain ⟨first, _, rfl, number, kinds⟩ := List.map_eq_cons_iff.mp kinds
  obtain ⟨second, _, rfl, colon, kinds⟩ := List.map_eq_cons_iff.mp kinds
  obtain ⟨third, _, rfl, identifier, kinds⟩ := List.map_eq_cons_iff.mp kinds
  obtain ⟨fourth, _, rfl, secondColon, kinds⟩ := List.map_eq_cons_iff.mp kinds
  obtain rfl := List.map_eq_nil_iff.mp kinds
  obtain ⟨numeral, number⟩ := Token.eq_number_of_kind number
  obtain ⟨name, identifier⟩ := Token.eq_identifier_of_kind identifier
  rw [List.map_cons, List.map_cons, List.map_cons, List.map_cons, List.map_nil, number,
    eq_colon_of_kind colon, identifier, eq_colon_of_kind secondColon] at reads
  exact exists_shape_of_reads marked reads

theorem takeRest_token {lexer : Lexer} {shape : Shape} (left : lexer.rest = shape.data) :
    lexer.takeRest.1.token = .string (String.ofList shape.value) := by
  unfold Lexer.takeRest Shape.value
  split
  · rename_i rest space
    rw [← left, space]
    rfl
  · rename_i other
    split
    · rename_i rest space
      exact absurd (left.trans space) (other rest)
    · rw [← left]

/-- The numeral of a line that follows the format is a machine word, if it is not too large. -/
theorem Shape.WellFormed.offset?_numeral {shape : Shape} (wellFormed : shape.WellFormed) :
    offset? (String.ofList shape.numeral) =
      if shape.number < UInt64.size then some (UInt64.ofNat shape.number) else none := by
  have value : Text.unsigned? shape.numeral = some shape.number := wellFormed.hex?_digits
  rw [offset?, String.toList_ofList, value]

/-- A line that follows the format is read as its name and match, if its number fits a machine
word. -/
theorem read_of_shape (line : Nat) {text : String} {shape : Shape} (wellFormed : shape.WellFormed)
    (written : text.toList = shape.written) :
    ∃ span, read line text =
      if shape.number < UInt64.size then
        .ok (String.ofList shape.name,
          ⟨UInt64.ofNat shape.number, String.ofList shape.value⟩)
      else .error (.numericDecode (String.ofList shape.numeral) span) := by
  have reads : Reads (Lexer.ofLine text line).rest shape.tokens shape.data := by
    show Reads text.toList shape.tokens shape.data
    rw [written]
    exact wellFormed.reads
  obtain ⟨lexemes, after, read, tokens, left⟩ := Lexer.expectAll_of_reads _ reads
  obtain ⟨offset, _, rfl, offsetToken, tokens⟩ := List.map_eq_cons_iff.mp tokens
  obtain ⟨_, _, rfl, -, tokens⟩ := List.map_eq_cons_iff.mp tokens
  obtain ⟨name, _, rfl, nameToken, tokens⟩ := List.map_eq_cons_iff.mp tokens
  obtain ⟨_, _, rfl, -, tokens⟩ := List.map_eq_cons_iff.mp tokens
  obtain rfl := List.map_eq_nil_iff.mp tokens
  have read : (Lexer.ofLine text line).expectAll MatchLine.shape = _ := read
  have numeral : offset.token.text = String.ofList shape.numeral := congrArg Token.text offsetToken
  refine ⟨offset.span, ?_⟩
  rw [MatchLine.read, read]
  dsimp only
  rw [decodeOffset, numeral, wellFormed.offset?_numeral, nameToken, takeRest_token left]
  by_cases small : shape.number < UInt64.size
  · rw [if_pos small, if_pos small]
    rfl
  · rw [if_neg small, if_neg small]

end MatchLine

/-- Whether a violation says that a line does not have the tokens it should have. -/
def Violation.isMisshapen : Violation → Bool
  | .unexpectedToken _ _ _ | .unexpectedEnd _ _ | .lex _ => true
  | _ => false

namespace Lexer

theorem isMisshapen_expect {lexer after : Lexer} {kind : Token.Kind} {violation : Violation}
    (failed : lexer.expect kind = (.error violation, after)) : violation.isMisshapen = true := by
  unfold expect at failed
  split at failed
  · cases failed
    rfl
  · split at failed
    · cases failed
    · split at failed <;> cases failed <;> rfl

theorem isMisshapen_expectAll {lexer after : Lexer} {kinds : List Token.Kind}
    {violation : Violation} (failed : lexer.expectAll kinds = (.error violation, after)) :
    violation.isMisshapen = true := by
  induction kinds generalizing lexer with
  | nil => cases failed
  | cons kind kinds inductionHypothesis =>
    unfold expectAll at failed
    split at failed
    · rename_i first
      cases failed
      exact isMisshapen_expect first
    · split at failed
      · rename_i others
        cases failed
        exact inductionHypothesis others
      · cases failed

end Lexer

namespace MatchLine

/-- A marked line that does not follow the format lacks a token that it should have. -/
theorem read_of_no_shape (line : Nat) {text : String} (marked : isMarked text = true)
    (shapeless : ¬ ∃ shape : Shape, shape.WellFormed ∧ text.toList = shape.written) :
    ∃ violation, read line text = .error violation ∧ violation.isMisshapen = true := by
  unfold read
  cases read : (Lexer.ofLine text line).expectAll shape with
  | mk outcome after =>
    cases outcome with
    | error violation => exact ⟨violation, rfl, Lexer.isMisshapen_expectAll read⟩
    | ok lexemes => exact absurd (exists_shape marked read) shapeless

theorem isMatch_of_isMarked {line : String} (marked : isMarked line = true) :
    Reader.isMatch line = true := by
  obtain ⟨tail, front⟩ := List.isPrefixOf_iff_prefix.mp marked
  have visible : Text.isBlankLine line = false := by
    rw [Text.isBlankLine, ← front]
    rfl
  rw [Reader.isMatch, visible, marked]
  rfl

end MatchLine

/-- Runs of matches with one more match: the last run goes on when it is of the same string, and
else the match begins a run. -/
structure StringMatch.GoesOn (identifier : String) (occurrence : Match)
    (former latter : List StringMatch) : Prop where
  same (front : List StringMatch) (last : StringMatch) (ends : former = front ++ [last])
    (own : last.identifier = identifier) :
    latter = front ++ [⟨last.identifier, last.occurrences ++ [occurrence]⟩]
  new (other : ∀ last ∈ former.getLast?, last.identifier ≠ identifier) :
    latter = former ++ [⟨identifier, [occurrence]⟩]

theorem StringMatch.goesOn_add (identifier : String) (occurrence : Match)
    (runs : List StringMatch) : GoesOn identifier occurrence runs (add identifier occurrence runs) where
  same front last ends own := by
    rw [ends, ← own]
    exact add_same last.identifier occurrence front last.occurrences
  new other := add_new identifier occurrence other

namespace Reader

variable {reader : Reader} {rule : Rule} {line : String}

theorem feed_marked (progress : reader.progress = .inRule rule)
    (marked : MatchLine.isMarked line = true) :
    reader.feed line =
      match MatchLine.read (reader.lineNumber + 1) line with
      | .ok (identifier, occurrence) =>
        ⟨⟨.inRule (rule.pushMatch identifier occurrence), reader.lineNumber + 1, reader.skipped⟩,
          [], [], none⟩
      | .error violation =>
        ⟨⟨.failed, reader.lineNumber + 1, reader.skipped⟩, [], [], some violation⟩ := by
  obtain ⟨_, number, skipped⟩ := reader
  obtain rfl := progress
  exact feed_match Progress.noConfusion (MatchLine.isMatch_of_isMarked marked)

/-- A line that follows the format of match lines adds its match to the rule in progress. -/
theorem feed_of_shape (progress : reader.progress = .inRule rule)
    (marked : MatchLine.isMarked line = true) {shape : MatchLine.Shape}
    (wellFormed : shape.WellFormed) (written : line.toList = shape.written) :
    (shape.number < UInt64.size →
      ∃ occurrence strings, occurrence.offset.toNat = shape.number ∧
        occurrence.value = String.ofList shape.value ∧
        StringMatch.GoesOn (String.ofList shape.name) occurrence rule.strings strings ∧
        reader.feed line = ⟨⟨.inRule { rule with strings := strings }, reader.lineNumber + 1,
          reader.skipped⟩, [], [], none⟩) ∧
    (UInt64.size ≤ shape.number → ∃ span, (reader.feed line).violation =
      some (.numericDecode (String.ofList shape.numeral) span)) := by
  obtain ⟨span, read⟩ := MatchLine.read_of_shape (reader.lineNumber + 1) wellFormed written
  rw [feed_marked progress marked, read]
  refine ⟨fun small => ?_, fun large => ⟨span, ?_⟩⟩
  · rw [if_pos small]
    exact ⟨_, _, UInt64.toNat_ofNat_of_lt' small, rfl,
      StringMatch.goesOn_add (String.ofList shape.name) _ rule.strings, rfl⟩
  · rw [if_neg (Nat.not_lt.mpr large)]

/-- In the middle of a rule a marked line is accepted exactly when it follows the format of match
lines and its number fits a machine word. It then adds its match, with the data kept as it is,
and changes nothing else. Where only the number is too large, that is the violation, and every
other line lacks a token that it should have. -/
theorem accepts_match_iff (reader : Reader) (rule : Rule) (line : String)
    (progress : reader.progress = .inRule rule) (marked : MatchLine.isMarked line = true) :
    ((reader.feed line).violation = none ↔
        ∃ shape : MatchLine.Shape, shape.WellFormed ∧ line.toList = shape.written ∧
          shape.number < UInt64.size) ∧
      (∀ shape : MatchLine.Shape, shape.WellFormed → line.toList = shape.written →
        (shape.number < UInt64.size →
          ∃ occurrence strings, occurrence.offset.toNat = shape.number ∧
            occurrence.value = String.ofList shape.value ∧
            StringMatch.GoesOn (String.ofList shape.name) occurrence rule.strings strings ∧
            reader.feed line = ⟨⟨.inRule { rule with strings := strings },
              reader.lineNumber + 1, reader.skipped⟩, [], [], none⟩) ∧
        (UInt64.size ≤ shape.number → ∃ span, (reader.feed line).violation =
          some (.numericDecode (String.ofList shape.numeral) span))) ∧
      ((¬ ∃ shape : MatchLine.Shape, shape.WellFormed ∧ line.toList = shape.written) →
        ∃ violation, (reader.feed line).violation = some violation ∧
          violation.isMisshapen = true) := by
  refine ⟨⟨fun accepted => ?_, ?_⟩, fun shape wellFormed written =>
    feed_of_shape progress marked wellFormed written, fun shapeless => ?_⟩
  · by_cases follows : ∃ shape : MatchLine.Shape, shape.WellFormed ∧ line.toList = shape.written
    · obtain ⟨shape, wellFormed, written⟩ := follows
      refine ⟨shape, wellFormed, written, Nat.lt_of_not_le fun large => ?_⟩
      obtain ⟨span, violates⟩ := (feed_of_shape progress marked wellFormed written).2 large
      cases violates.symm.trans accepted
    · obtain ⟨violation, read, -⟩ :=
        MatchLine.read_of_no_shape (reader.lineNumber + 1) marked follows
      rw [feed_marked progress marked, read] at accepted
      cases accepted
  · rintro ⟨shape, wellFormed, written, small⟩
    obtain ⟨_, _, -, -, -, fed⟩ := (feed_of_shape progress marked wellFormed written).1 small
    rw [fed]
  · obtain ⟨violation, read, misshapen⟩ :=
      MatchLine.read_of_no_shape (reader.lineNumber + 1) marked shapeless
    refine ⟨violation, ?_, misshapen⟩
    rw [feed_marked progress marked, read]

/-- Blanks around the name go, and of those before the data only one space does. -/
theorem accepts_match_spaced :
    MatchLine.isMarked "0xfF :\t$a :  \"]" = true ∧
      ∃ occurrence strings, occurrence.offset.toNat = 255 ∧ occurrence.value = " \"]" ∧
        StringMatch.GoesOn "$a" occurrence [⟨"$a", [⟨1, "x"⟩]⟩] strings ∧
        feed ⟨.inRule ⟨"H", [], [], [⟨"$a", [⟨1, "x"⟩]⟩]⟩, 2, 0⟩ "0xfF :\t$a :  \"]" =
          ⟨⟨.inRule ⟨"H", [], [], strings⟩, 3, 0⟩, [], [], none⟩ :=
  ⟨by decide, ((accepts_match_iff ⟨.inRule ⟨"H", [], [], [⟨"$a", [⟨1, "x"⟩]⟩]⟩, 2, 0⟩
    ⟨"H", [], [], [⟨"$a", [⟨1, "x"⟩]⟩]⟩ "0xfF :\t$a :  \"]" rfl (by decide)).2.1
    ⟨['f', 'F'], [' '], ['\t'], ['$', 'a'], [' '], [' ', ' ', '"', ']']⟩
    ⟨by decide, List.all_eq_true.mp rfl, List.all_eq_true.mp rfl, List.all_eq_true.mp rfl, by decide,
      List.all_eq_true.mp rfl⟩ (by decide)).1 (by decide)⟩

end Reader

end YaraReport
