/-
This file prints rules as the scanner does and proves that reading the printed
lines gives the rules back: a header line for each rule and a match line for
each match, whatever the texts hold that are not words.

Printing is undone part by part. `Header.reads_header` says which tokens a
printed header consists of, `MatchLine.read_printed` reads a match line back,
and `StringMatch.foldl_add` puts the matches of a rule back into their runs.
-/

import Mathlib.Data.List.Chain
import YaraReport.Proofs.Scan.Grammar
import YaraReport.Proofs.Scan.History
import YaraReport.Proofs.Text.Escaping
import YaraReport.Proofs.Text.Numerals

namespace YaraReport

open Token (Reads IsBareword IsName EndsWord)

/-! ### How a scan is printed -/

/-- A metadata value as it is printed: a string in quotes and with escapes. -/
def MetaValue.printed : MetaValue → List Char
  | .string text => '"' :: (Text.escape text.toList ++ ['"'])
  | .integer value => Text.signedDecimal value.toInt
  | .boolean value => (if value then "true" else "false").toList

/-- A metadata entry as it is printed. -/
def Meta.printed (entry : Meta) : List Char :=
  entry.identifier.toList ++ '=' :: entry.value.printed

/-- The header line of a rule, with a text after its lists. -/
def Header.printed (rule : Rule) (tail : String) : String :=
  String.ofList (rule.identifier.toList ++ ' ' :: '[' ::
    ([','].intercalate (rule.tags.map String.toList) ++ ']' :: ' ' :: '[' ::
      ([','].intercalate (rule.metadata.map Meta.printed) ++ ']' :: ' ' :: tail.toList)))

/-- The line of a match. -/
def MatchLine.printed (capitals : Bool) (identifier : String) (occurrence : Match) : String :=
  String.ofList ('0' :: 'x' :: (Text.hexIn capitals occurrence.offset.toNat ++ ':' ::
    (identifier.toList ++ ':' :: ' ' :: occurrence.value.toList)))

/-- The matches of a rule in order, each with the identifier of its string. -/
def Rule.found (rule : Rule) : List (String × Match) :=
  rule.strings.flatMap fun run => run.occurrences.map fun occurrence => (run.identifier, occurrence)

/-- A rule and what its lines leave open. -/
structure Printout where
  rule : Rule
  tail : String
  capitals : Bool

/-- The lines of a rule. -/
def Printout.lines (printout : Printout) : List String :=
  Header.printed printout.rule printout.tail ::
    printout.rule.found.map fun entry => MatchLine.printed printout.capitals entry.1 entry.2

/-- A rule that can be printed: what is written without quotes is a word, names are no numerals,
a header is not taken for a match line, and the runs of matches are runs. -/
structure Rule.Printable (rule : Rule) : Prop where
  identifier : IsName rule.identifier.toList
  unmarked : MatchLine.isMarked rule.identifier = false
  tags : ∀ tag ∈ rule.tags, IsBareword tag.toList
  metadata : ∀ entry ∈ rule.metadata, IsName entry.identifier.toList
  strings : ∀ run ∈ rule.strings, IsName run.identifier.toList ∧ run.occurrences ≠ []
  neighbours : rule.strings.IsChain fun former latter => former.identifier ≠ latter.identifier

/-! ### Words of a printed line -/

theorem isBareword_signedDecimal (value : Int) : IsBareword (Text.signedDecimal value) :=
  ⟨Text.signedDecimal_ne_nil value,
    Text.forall_mem_signedDecimal (by decide) (by decide) value⟩

theorem isBareword_offset (capitals : Bool) (value : Nat) :
    IsBareword ('0' :: 'x' :: Text.hexIn capitals value) := by
  refine ⟨List.cons_ne_nil _ _, ?_⟩
  rw [List.forall_mem_cons, List.forall_mem_cons]
  exact ⟨by decide, by decide, Text.forall_mem_hexIn (by decide) (by decide) capitals value⟩

/-! ### Header lines -/

namespace Header

/-- The token of a printed metadata value. -/
def valueToken : MetaValue → Token
  | .string text => .string (String.ofList (Text.escape text.toList))
  | .integer value => .number (String.ofList (Text.signedDecimal value.toInt))
  | .boolean value => .identifier (if value then "true" else "false")

/-- The tokens of a printed metadata entry. -/
def entryTokens (entry : Meta) : List Token :=
  [.identifier entry.identifier, .equals, valueToken entry.value]

/-- The tokens of a printed header. -/
def shapeOf (rule : Rule) : Shape where
  name := rule.identifier
  tags := [.comma].intercalate (rule.tags.map fun tag => [Token.ofWord tag.toList])
  metadata := [.comma].intercalate (rule.metadata.map entryTokens)

theorem written_valueToken (value : MetaValue) : (valueToken value).written = value.printed := by
  cases value with
  | string text => exact congrArg (fun raw => '"' :: (raw ++ ['"'])) String.toList_ofList
  | integer value => exact String.toList_ofList
  | boolean value => rfl

theorem proper_valueToken (value : MetaValue) : (valueToken value).Proper := by
  cases value with
  | string text =>
    rw [valueToken, Token.Proper, String.toList_ofList]
    exact Text.isClosed_escape _
  | integer value =>
    rw [valueToken, Token.Proper, String.toList_ofList, Token.isNumeral, Text.signed?_signedDecimal]
    exact ⟨isBareword_signedDecimal _, rfl⟩
  | boolean value => cases value <;> exact ⟨by decide, rfl⟩

theorem denotes_valueToken (value : MetaValue) : Denotes (valueToken value) value := by
  cases value with
  | string text =>
    have resolved : Text.unescaped (String.ofList (Text.escape text.toList)) = text := by
      rw [Text.unescaped, String.toList_ofList, Text.unescape_escape, String.ofList_toList]
    have denotes := Denotes.string (String.ofList (Text.escape text.toList))
    rw [resolved] at denotes
    exact denotes
  | integer value =>
    have numeral : Text.signed? (String.ofList (Text.signedDecimal value.toInt)).toList =
        some value.toInt := by
      rw [String.toList_ofList, Text.signed?_signedDecimal]
    have denotes := Denotes.integer numeral value.le_toInt value.toInt_lt
    rw [Int64.ofInt_toInt] at denotes
    exact denotes
  | boolean value => cases value <;> exact .boolean rfl

theorem isEntry_entryTokens (entry : Meta) : IsEntry (entryTokens entry) entry :=
  ⟨valueToken entry.value, [], rfl, denotes_valueToken entry.value⟩

/-- A list whose items are printed with commas between them has the tokens of its items, with
commas between them. -/
theorem reads_intercalate {Item : Type} {text : Item → List Char} {tokens : Item → List Token}
    {items : List Item} (each : ∀ item ∈ items, ∀ rest, EndsWord rest →
      Reads (text item ++ rest) (tokens item) rest) {rest : List Char} (ends : EndsWord rest) :
    Reads ([','].intercalate (items.map text) ++ rest)
      ([.comma].intercalate (items.map tokens)) rest := by
  induction items with
  | nil => exact .done rest
  | cons item items inductionHypothesis =>
    have first := each item List.mem_cons_self
    have others := inductionHypothesis fun other member =>
      each other (List.mem_cons_of_mem _ member)
    cases items with
    | nil =>
      rw [List.map_singleton, List.map_singleton, List.intercalate_singleton,
        List.intercalate_singleton]
      exact first rest ends
    | cons next items =>
      rw [List.map_cons, List.map_cons] at others ⊢
      rw [List.map_cons, List.map_cons, List.intercalate_cons_cons, List.intercalate_cons_cons,
        List.append_assoc, List.append_assoc, List.append_assoc]
      refine (first _ (Token.endsWord_of_isDelimiter rfl _)).append ?_
      exact .next rfl Token.noConfusion others

theorem reads_tag {tag : String} (bareword : IsBareword tag.toList) {rest : List Char}
    (ends : EndsWord rest) : Reads (tag.toList ++ rest) [Token.ofWord tag.toList] rest := by
  have reads := Reads.written_append (Token.proper_ofWord bareword) (fun _ => ends) (.done rest)
  rw [Token.written_ofWord] at reads
  exact reads

theorem reads_entry {entry : Meta} (name : IsName entry.identifier.toList) {rest : List Char}
    (ends : EndsWord rest) : Reads (entry.printed ++ rest) (entryTokens entry) rest := by
  have value := Reads.written_append (proper_valueToken entry.value) (fun _ => ends) (.done rest)
  rw [written_valueToken] at value
  rw [Meta.printed, List.append_assoc]
  have identifier : (Token.identifier entry.identifier).Proper := name
  exact Reads.written_append identifier (fun _ => Token.endsWord_of_isDelimiter rfl _)
    (.next rfl Token.noConfusion value)

/-- The tokens of a printed header up to the bracket that closes its second list. -/
theorem reads_printed {rule : Rule} (printable : rule.Printable) (tail : String) :
    Reads (printed rule tail).toList (shapeOf rule).tokens (' ' :: tail.toList) := by
  have identifier : (Token.identifier rule.identifier).Proper := printable.identifier
  have tags := reads_intercalate
    (fun tag member rest => reads_tag (printable.tags tag member))
    (Token.endsWord_rightBracket (' ' :: '[' ::
      ([','].intercalate (rule.metadata.map Meta.printed) ++ ']' :: ' ' :: tail.toList)))
  have metadata := reads_intercalate
    (fun entry member rest => reads_entry (printable.metadata entry member))
    (Token.endsWord_rightBracket (' ' :: tail.toList))
  rw [printed, String.toList_ofList]
  refine Reads.written_append identifier (fun _ => Token.endsWord_of_isBlank rfl _)
    (.next rfl Token.noConfusion ?_)
  refine (tags.append (.next rfl Token.noConfusion (.done _))).append ?_
  exact .next rfl Token.noConfusion (metadata.append (.next rfl Token.noConfusion (.done _)))

/-- A piece of a list that keeps its place in it: it is not empty and holds no separator. -/
structure IsItem (piece : List Token) : Prop where
  nonempty : piece ≠ []
  whole : .comma ∉ piece
  inside : .rightBracket ∉ piece

theorem isItem_tag (tag : String) : IsItem [Token.ofWord tag.toList] := by
  unfold Token.ofWord
  split <;> exact ⟨List.cons_ne_nil _ _, by simp, by simp⟩

theorem isItem_entryTokens (entry : Meta) : IsItem (entryTokens entry) := by
  unfold entryTokens
  cases entry.value <;> exact ⟨List.cons_ne_nil _ _, by simp [valueToken], by simp [valueToken]⟩

/-- Printed items are cut apart again. No items at all are one empty piece. -/
theorem splitOn_intercalate {pieces : List (List Token)} (items : ∀ piece ∈ pieces, IsItem piece) :
    pieces = [] ∧ ([Token.comma].intercalate pieces).splitOn .comma = [[]] ∨
      ([Token.comma].intercalate pieces).splitOn .comma = pieces := by
  cases pieces with
  | nil => exact .inl ⟨rfl, rfl⟩
  | cons piece pieces =>
    exact .inr (List.splitOn_intercalate _ (fun other member => (items other member).whole)
      (List.cons_ne_nil _ _))

theorem listed_of_items {pieces : List (List Token)} (items : ∀ piece ∈ pieces, IsItem piece) :
    listed pieces = pieces := by
  fun_induction listed pieces with
  | case1 => rfl
  | case2 => exact absurd rfl (items [] List.mem_cons_self).nonempty
  | case3 piece pieces _ inductionHypothesis =>
    rw [inductionHypothesis fun other member => items other (List.mem_cons_of_mem _ member)]

theorem listed_intercalate {pieces : List (List Token)} (items : ∀ piece ∈ pieces, IsItem piece) :
    listed (([Token.comma].intercalate pieces).splitOn .comma) = pieces := by
  rcases splitOn_intercalate items with ⟨rfl, empty⟩ | same
  · rw [empty]
    rfl
  · rw [same, listed_of_items items]

/-- What is gathered from the pieces of a printed list, when an empty piece gives nothing. -/
theorem filterMap_intercalate {Value : Type} {gather : List Token → Option Value}
    (nothing : gather [] = none) {pieces : List (List Token)}
    (items : ∀ piece ∈ pieces, IsItem piece) :
    (([Token.comma].intercalate pieces).splitOn .comma).filterMap gather =
      pieces.filterMap gather := by
  rcases splitOn_intercalate items with ⟨rfl, empty⟩ | same
  · rw [empty, List.filterMap_cons_none nothing]
  · rw [same]

theorem items_of_map {Item : Type} (items : List Item) {tokens : Item → List Token}
    (each : ∀ item, IsItem (tokens item)) : ∀ piece ∈ items.map tokens, IsItem piece := by
  intro piece member
  obtain ⟨item, -, rfl⟩ := List.mem_map.mp member
  exact each item

variable {rule : Rule}

theorem bracketed_shapeOf (rule : Rule) : (shapeOf rule).Bracketed where
  tags := not_mem_intercalate Token.noConfusion fun piece member =>
    (items_of_map rule.tags isItem_tag piece member).inside
  metadata := not_mem_intercalate Token.noConfusion fun piece member =>
    (items_of_map rule.metadata isItem_entryTokens piece member).inside

/-- A printed header denotes its rule, without matches. -/
theorem makes_shapeOf (rule : Rule) : (shapeOf rule).Makes { rule with strings := [] } where
  identifier := rfl
  tags := by
    have nothing : tagOf? [] = none := rfl
    have gathered := filterMap_intercalate nothing (items_of_map rule.tags isItem_tag)
    have tag (text : String) : tagOf? [Token.ofWord text.toList] = some text := by
      unfold Token.ofWord
      split <;> exact congrArg some String.ofList_toList
    rw [Shape.tagPieces, shapeOf, gathered, List.filterMap_map]
    exact ((List.filterMap_congr fun text _ => tag text).trans List.filterMap_some).symm
  metadata := by
    have nothing : Option.guard isNamed [] = none := rfl
    have gathered := filterMap_intercalate nothing
      (items_of_map rule.metadata isItem_entryTokens)
    rw [List.filterMap_eq_filter] at gathered
    have named : (rule.metadata.map entryTokens).filter isNamed = rule.metadata.map entryTokens :=
      List.filter_eq_self.mpr fun piece member => by
        obtain ⟨entry, -, rfl⟩ := List.mem_map.mp member
        rfl
    rw [Shape.metadataPieces, shapeOf, gathered, named, List.forall₂_map_left_iff]
    exact List.forall₂_same.mpr fun entry _ => isEntry_entryTokens entry
  strings := rfl

/-- Nothing of a printed header is left out. -/
theorem skipped_shapeOf (rule : Rule) : (shapeOf rule).skipped = 0 := by
  rw [Shape.skipped, Shape.tagPieces, Shape.metadataPieces, shapeOf,
    listed_intercalate (items_of_map _ isItem_tag),
    listed_intercalate (items_of_map _ isItem_entryTokens), Nat.add_eq_zero_iff,
    List.countP_eq_zero, List.countP_eq_zero]
  constructor
  · intro piece member
    obtain ⟨tag, -, rfl⟩ := List.mem_map.mp member
    unfold Token.ofWord
    split <;> exact Bool.false_ne_true
  · intro piece member
    obtain ⟨entry, -, rfl⟩ := List.mem_map.mp member
    exact Bool.false_ne_true

theorem isMarked_printed (printable : rule.Printable) (tail : String) :
    MatchLine.isMarked (printed rule tail) = false := by
  have unmarked := printable.unmarked
  have nonempty := printable.identifier.1.1
  rw [MatchLine.isMarked] at unmarked ⊢
  rw [printed, String.toList_ofList]
  generalize rule.identifier.toList = name at unmarked nonempty ⊢
  rcases name with _ | ⟨first, _ | ⟨second, others⟩⟩
  · exact absurd rfl nonempty
  · -- The blank after a name of one character is not the second character of the marker.
    show (_ && (('x' == ' ') && _)) = false
    exact Bool.and_false _
  · exact unmarked

end Header

/-! ### Match lines -/

/-- The kinds before the data of a match line are those of its tokens. -/
theorem MatchLine.reads_printed (capitals : Bool) {identifier : String}
    (name : IsName identifier.toList) (occurrence : Match) :
    Reads (printed capitals identifier occurrence).toList
      [.number (String.ofList ('0' :: 'x' :: Text.hexIn capitals occurrence.offset.toNat)), .colon,
        .identifier identifier, .colon] (' ' :: occurrence.value.toList) := by
  have bareword := isBareword_offset capitals occurrence.offset.toNat
  have numeral : Token.isNumeral ('0' :: 'x' :: Text.hexIn capitals occurrence.offset.toNat) = true := by
    rw [Token.isNumeral, Text.signed?, Text.unsigned?, Text.hex?_hexIn]
    · rfl
    · exact fun _ front => by cases front
  have word : (Token.identifier identifier).Proper := name
  have others : Reads (identifier.toList ++ ':' :: ' ' :: occurrence.value.toList)
      [.identifier identifier, .colon] (' ' :: occurrence.value.toList) :=
    Reads.written_append word (fun _ => Token.endsWord_of_isDelimiter rfl _)
      (.next rfl Token.noConfusion (.done _))
  have whole : Reads (':' :: (identifier.toList ++ ':' :: ' ' :: occurrence.value.toList))
      [.colon, .identifier identifier, .colon] (' ' :: occurrence.value.toList) :=
    .next rfl Token.noConfusion others
  have reads := Reads.written_append (Token.proper_ofWord bareword)
    (fun _ => Token.endsWord_of_isDelimiter rfl _) whole
  rw [Token.written_ofWord, Token.ofWord_of_isNumeral numeral] at reads
  rw [printed, String.toList_ofList]
  exact reads

theorem Lexer.takeRest_of_space {lexer : Lexer} {rest : List Char}
    (space : lexer.rest = ' ' :: rest) :
    lexer.takeRest.1.token = .string (String.ofList rest) := by
  unfold takeRest
  rw [space]
  rfl

theorem MatchLine.offset?_hexIn (capitals : Bool) (offset : UInt64) :
    offset? (String.ofList ('0' :: 'x' :: Text.hexIn capitals offset.toNat)) = some offset := by
  have value : Text.unsigned? ('0' :: 'x' :: Text.hexIn capitals offset.toNat) =
      some offset.toNat := by
    rw [Text.unsigned?, Text.hex?_hexIn]
  rw [offset?, String.toList_ofList, value]
  dsimp only
  rw [if_pos offset.toNat_lt, UInt64.ofNat_toNat]

/-- A printed match line is read as its match. -/
theorem MatchLine.read_printed (line : Nat) (capitals : Bool) {identifier : String}
    (name : IsName identifier.toList) (occurrence : Match) :
    read line (printed capitals identifier occurrence) = .ok (identifier, occurrence) := by
  obtain ⟨lexemes, after, read, tokens, left⟩ := Lexer.expectAll_of_reads
    (Lexer.ofLine (printed capitals identifier occurrence) line)
    (reads_printed capitals name occurrence)
  have data := Lexer.takeRest_of_space left
  obtain ⟨offset, _, rfl, offsetToken, tokens⟩ := List.map_eq_cons_iff.mp tokens
  obtain ⟨_, _, rfl, -, tokens⟩ := List.map_eq_cons_iff.mp tokens
  obtain ⟨name, _, rfl, nameToken, tokens⟩ := List.map_eq_cons_iff.mp tokens
  obtain ⟨_, _, rfl, -, tokens⟩ := List.map_eq_cons_iff.mp tokens
  obtain rfl := List.map_eq_nil_iff.mp tokens
  have read : (Lexer.ofLine (printed capitals identifier occurrence) line).expectAll shape = _ :=
    read
  have word : decodeOffset offset = .ok occurrence.offset := by
    rw [decodeOffset, offsetToken, Token.text, offset?_hexIn]
  rw [MatchLine.read, read]
  dsimp only
  rw [word, nameToken, data]
  show Except.ok (identifier, Match.mk _ (String.ofList _)) = _
  rw [String.ofList_toList]

theorem MatchLine.isMatch_printed (capitals : Bool) (identifier : String) (occurrence : Match) :
    Reader.isMatch (printed capitals identifier occurrence) = true := by
  rw [Reader.isMatch, Text.isBlankLine, isMarked, printed, String.toList_ofList]
  rfl

/-! ### Runs of matches -/

namespace StringMatch

variable (identifier : String) (occurrence : Match)

theorem add_append (front : List StringMatch) (last : StringMatch) :
    add identifier occurrence (front ++ [last]) = front ++ add identifier occurrence [last] := by
  induction front with
  | nil => rfl
  | cons run front inductionHypothesis =>
    obtain ⟨next, others, same⟩ := List.exists_cons_of_ne_nil
      (List.append_ne_nil_of_right_ne_nil front (List.cons_ne_nil last []))
    rw [List.cons_append, List.cons_append, ← inductionHypothesis, same, add]

/-- A match of another string than the last one begins a run. -/
theorem add_new {runs : List StringMatch}
    (other : ∀ last ∈ runs.getLast?, last.identifier ≠ identifier) :
    add identifier occurrence runs = runs ++ [⟨identifier, [occurrence]⟩] := by
  rcases List.eq_nil_or_concat runs with rfl | ⟨front, last, rfl⟩
  · rfl
  · rw [List.concat_eq_append] at other ⊢
    rw [add_append, add, if_neg (other last List.getLast?_concat), List.append_assoc]
    rfl

/-- A match of the last string goes on with its run. -/
theorem add_same (front : List StringMatch) (occurrences : List Match) :
    add identifier occurrence (front ++ [⟨identifier, occurrences⟩]) =
      front ++ [⟨identifier, occurrences ++ [occurrence]⟩] := by
  rw [add_append, add, if_pos rfl]

theorem foldl_add_same (front : List StringMatch) (former latter : List Match) :
    (latter.map fun occurrence => (identifier, occurrence)).foldl
        (fun runs entry => add entry.1 entry.2 runs) (front ++ [⟨identifier, former⟩]) =
      front ++ [⟨identifier, former ++ latter⟩] := by
  induction latter generalizing former with
  | nil => rw [List.append_nil, List.map_nil, List.foldl_nil]
  | cons occurrence latter inductionHypothesis =>
    rw [List.map_cons, List.foldl_cons, add_same, inductionHypothesis, List.append_assoc,
      List.singleton_append]

/-- Adding the matches of runs one by one gives the runs back. -/
theorem foldl_add (front : List StringMatch) {runs : List StringMatch}
    (nonempty : ∀ run ∈ runs, run.occurrences ≠ [])
    (neighbours : (front ++ runs).IsChain fun former latter =>
      former.identifier ≠ latter.identifier) :
    (runs.flatMap fun run => run.occurrences.map fun occurrence =>
        (run.identifier, occurrence)).foldl (fun runs entry => add entry.1 entry.2 runs) front =
      front ++ runs := by
  induction runs generalizing front with
  | nil => rw [List.flatMap_nil, List.foldl_nil, List.append_nil]
  | cons run runs inductionHypothesis =>
    obtain ⟨identifier, occurrences⟩ := run
    obtain ⟨first, others, rfl⟩ :=
      List.exists_cons_of_ne_nil (nonempty _ List.mem_cons_self)
    have new : ∀ last ∈ front.getLast?, last.identifier ≠ identifier := fun last member =>
      (List.isChain_append.mp neighbours).2.2 last member _ rfl
    rw [List.append_cons] at neighbours ⊢
    rw [List.flatMap_cons, List.foldl_append, List.map_cons, List.foldl_cons, add_new _ _ new,
      foldl_add_same, List.singleton_append]
    exact inductionHypothesis _ (fun other member => nonempty other (List.mem_cons_of_mem _ member))
      neighbours

end StringMatch

/-- Pushing matches onto a rule is adding them to its strings. -/
theorem Rule.foldl_pushMatch_eq (rule : Rule) (found : List (String × Match)) :
    found.foldl (fun rule entry => rule.pushMatch entry.1 entry.2) rule =
      { rule with strings :=
          found.foldl (fun runs entry => StringMatch.add entry.1 entry.2 runs) rule.strings } := by
  induction found generalizing rule with
  | nil => rfl
  | cons entry found inductionHypothesis => exact inductionHypothesis _

/-- The matches of a rule are put back into their runs. -/
theorem Rule.foldl_pushMatch {rule : Rule} (printable : rule.Printable) :
    rule.found.foldl (fun rule entry => rule.pushMatch entry.1 entry.2)
      { rule with strings := [] } = rule := by
  have runs := StringMatch.foldl_add []
    (fun run member => (printable.strings run member).2) printable.neighbours
  rw [foldl_pushMatch_eq, found, runs]
  rfl

namespace Reader

open Header

/-- A printed header begins its rule and leaves nothing out. -/
theorem feed_printed {reader : Reader} (active : reader.progress ≠ .failed) {rule : Rule}
    (printable : rule.Printable) (tail : String) :
    (reader.feed (Header.printed rule tail)).violation = none ∧
      (reader.feed (Header.printed rule tail)).delivered = reader.progress.pending ∧
      (reader.feed (Header.printed rule tail)).reader =
        ⟨.inRule { rule with strings := [] }, reader.lineNumber + 1, reader.skipped⟩ := by
  have reads := reads_printed printable tail
  have unmarked := isMarked_printed printable tail
  obtain ⟨accepted, next⟩ := feed_of_reads active unmarked reads (bracketed_shapeOf rule)
  have header : isHeader (Header.printed rule tail) = true :=
    isHeader_eq_true (isBlankLine_of_reads reads) unmarked
  refine ⟨accepted.mpr ⟨_, makes_shapeOf rule⟩, ?_, ?_⟩
  · rw [feed_delivered active, header]
    rfl
  · rw [next _ (makes_shapeOf rule), skipped_shapeOf]
    rfl

/-- Printed match lines add their matches to the rule in progress. -/
theorem pass_matches (capitals : Bool) {found : List (String × Match)}
    (names : ∀ entry ∈ found, IsName entry.1.toList) (rule : Rule) (number skipped : Nat)
    (later : List String) :
    pass ⟨.inRule rule, number, skipped⟩
        ((found.map fun entry => MatchLine.printed capitals entry.1 entry.2) ++ later) =
      pass ⟨.inRule (found.foldl (fun rule entry => rule.pushMatch entry.1 entry.2) rule),
        number + found.length, skipped⟩ later := by
  induction found generalizing rule number with
  | nil => rfl
  | cons entry found inductionHypothesis =>
    have name := names entry List.mem_cons_self
    have step : feed ⟨.inRule rule, number, skipped⟩
        (MatchLine.printed capitals entry.1 entry.2) =
          ⟨⟨.inRule (rule.pushMatch entry.1 entry.2), number + 1, skipped⟩, [], [], none⟩ := by
      rw [feed_match Progress.noConfusion (MatchLine.isMatch_printed _ _ _), feedMatch]
      dsimp only
      rw [MatchLine.read_printed _ _ name]
    rw [List.map_cons, List.cons_append, pass, step]
    dsimp only
    rw [inductionHypothesis (fun other member => names other (List.mem_cons_of_mem _ member)),
      List.foldl_cons, List.length_cons, Nat.add_assoc, Nat.add_comm 1, List.nil_append]

/-- The lines of a printed rule deliver the rule in progress and leave the printed one in
progress. -/
theorem pass_printout {reader : Reader} (active : reader.progress ≠ .failed)
    {printout : Printout} (printable : printout.rule.Printable) (later : List String) :
    ∃ number, reader.pass (printout.lines ++ later) =
      ⟨(pass ⟨.inRule printout.rule, number, reader.skipped⟩ later).reader,
        reader.progress.pending ++
          (pass ⟨.inRule printout.rule, number, reader.skipped⟩ later).delivered,
        (pass ⟨.inRule printout.rule, number, reader.skipped⟩ later).stop⟩ := by
  have names : ∀ entry ∈ printout.rule.found, IsName entry.1.toList := by
    intro entry member
    obtain ⟨run, inside, member⟩ := List.mem_flatMap.mp member
    obtain ⟨occurrence, -, rfl⟩ := List.mem_map.mp member
    exact (printable.strings run inside).1
  obtain ⟨accepted, delivered, next⟩ := feed_printed active printable printout.tail
  refine ⟨reader.lineNumber + 1 + printout.rule.found.length, ?_⟩
  rw [Printout.lines, List.cons_append, pass, accepted, delivered, next]
  dsimp only
  rw [pass_matches _ names, Rule.foldl_pushMatch printable]

/-- Printed rules are delivered in order, but for the last one, which is in progress at the
end. -/
theorem pass_printouts {printouts : List Printout}
    (printable : ∀ printout ∈ printouts, printout.rule.Printable) {reader : Reader}
    (active : reader.progress ≠ .failed) :
    ∃ passage, reader.pass (printouts.flatMap Printout.lines) = passage ∧ passage.stop = none ∧
      passage.reader.progress ≠ .failed ∧ passage.reader.skipped = reader.skipped ∧
      passage.delivered ++ passage.reader.progress.pending =
        reader.progress.pending ++ printouts.map Printout.rule := by
  induction printouts generalizing reader with
  | nil => exact ⟨_, rfl, rfl, active, rfl, (List.append_nil _).symm⟩
  | cons printout printouts inductionHypothesis =>
    obtain ⟨number, whole⟩ := pass_printout active (printable printout List.mem_cons_self)
      (printouts.flatMap Printout.lines)
    have inRule : (⟨.inRule printout.rule, number, reader.skipped⟩ : Reader).progress ≠ .failed :=
      Progress.noConfusion
    obtain ⟨passage, rest, stop, goesOn, skipped, delivered⟩ := inductionHypothesis
      (fun other member => printable other (List.mem_cons_of_mem _ member)) inRule
    rw [rest] at whole
    refine ⟨_, whole, stop, goesOn, skipped, ?_⟩
    dsimp only
    rw [List.append_assoc, delivered]
    rfl

end Reader

namespace Capture

/-- Reading printed rules gives them back in order, and nothing is left out. -/
theorem ofLines_printed (printouts : List Printout)
    (printable : ∀ printout ∈ printouts, printout.rule.Printable) :
    ofLines (printouts.flatMap Printout.lines) = .ok ⟨printouts.map Printout.rule, 0⟩ := by
  have idle : Reader.start.progress ≠ .failed := Reader.Progress.noConfusion
  obtain ⟨passage, whole, stop, active, skipped, delivered⟩ :=
    Reader.pass_printouts printable idle
  unfold ofLines
  dsimp only
  rw [whole, stop]
  dsimp only
  rw [Reader.finish_active active]
  dsimp only
  rw [delivered, skipped]
  rfl

/-- Separators inside quotes, the least integer and a blank before the data come back. -/
theorem ofLines_printed_separators :
    ofLines ["H [a] [s=\"\\\"],=\",n=-9223372036854775808,b=false] \"", "0xFF:$a:  ]", "K [] [] f"] =
      .ok ⟨[⟨"H", ["a"], [⟨"s", .string "\"],="⟩, ⟨"n", .integer Int64.minValue⟩,
        ⟨"b", .boolean false⟩], [⟨"$a", [⟨255, " ]"⟩]⟩]⟩, ⟨"K", [], [], []⟩], 0⟩ :=
  ofLines_printed [⟨⟨"H", ["a"], [⟨"s", .string "\"],="⟩, ⟨"n", .integer Int64.minValue⟩,
      ⟨"b", .boolean false⟩], [⟨"$a", [⟨255, " ]"⟩]⟩]⟩, "\"", true⟩, ⟨⟨"K", [], [], []⟩, "f", false⟩] (by
    intro printout member
    rcases List.mem_cons.mp member with rfl | member
    · exact ⟨by decide, by decide, by decide, by decide, by decide, by decide⟩
    · rw [List.mem_singleton.mp member]
      exact ⟨by decide, by decide, by decide, by decide, by decide, by decide⟩)

end Capture

end YaraReport
