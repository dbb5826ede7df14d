/-
This file proves that numbers are decoded exactly or not at all. What the lexer
takes for a number is a numeral, with one value. That value is a machine word
where it fits one, and where it does not, the numeral is a violation. Hence every
integer and every offset of a rule that a run delivers is the value of a numeral
that stands at its place in the run's lines.
-/

import YaraReport.Proofs.Rule.Runs
import YaraReport.Proofs.Scan.MatchGrammar

namespace YaraReport

open Text (Numeral)
open Token (Reads)

/-! ### Numbers are numerals -/

/-- A word is a number where its parts are those of a numeral. -/
theorem Token.isNumeral_iff (word : List Char) :
    isNumeral word = true ↔ (Numeral.ofText word).WellFormed := by
  rw [isNumeral, Option.isSome_iff_exists]
  simp only [Numeral.signed?_eq_some_iff, exists_and_left, exists_eq', and_true]

/-- A number has the parts of one numeral only. -/
theorem Text.Numeral.eq_ofText_iff {word : List Char} (number : (ofText word).WellFormed)
    (numeral : Numeral) : numeral.WellFormed ∧ numeral.written = word ↔ numeral = ofText word := by
  constructor
  · rintro ⟨wellFormed, rfl⟩
    exact wellFormed.ofText_written.symm
  · rintro rfl
    exact ⟨number, written_ofText word⟩

/-! ### Metadata integers -/

namespace Header

/-- A number is decoded as a machine integer where its value is one, and is a violation
elsewhere. -/
structure Decodes (text : String) (span : Span) (value : Int) : Prop where
  within (least : -0x8000000000000000 ≤ value) (most : value < 0x8000000000000000) :
    ∃ word : Int64, word.toInt = value ∧ metadataValue ⟨.number text, span⟩ = .ok (.integer word)
  beyond (outside : value < -0x8000000000000000 ∨ 0x8000000000000000 ≤ value) :
    metadataValue ⟨.number text, span⟩ = .error (.numericDecode text span)

theorem metadataValue_number (text : String) (span : Span) :
    metadataValue ⟨.number text, span⟩ =
      match integer? text with
      | some word => .ok (.integer word)
      | none => .error (.numericDecode text span) := rfl

theorem decodes_of_signed? {text : String} {value : Int} (span : Span)
    (numeral : Text.signed? text.toList = some value) : Decodes text span value := by
  constructor
  · intro least most
    have read := (integer?_eq_some_iff text _).mpr ⟨value, numeral, least, most, rfl⟩
    refine ⟨Int64.ofInt value, Int64.toInt_ofInt_of_le least most, ?_⟩
    rw [metadataValue_number, read]
  · intro outside
    have unread : integer? text = none := by
      rw [Option.eq_none_iff_forall_ne_some]
      intro word read
      obtain ⟨number, same, least, most, -⟩ := (integer?_eq_some_iff text word).mp read
      rw [numeral, Option.some.injEq] at same
      omega
    rw [metadataValue_number, unread]

/-- What a piece of a metadata list prints of its entry: an integer stands as a numeral of that
value. -/
def PrintsInteger (piece : List Token) (entry : Meta) : Prop :=
  ∀ word, entry.value = .integer word → ∃ (numeral : Numeral) (ignored : List Token),
    numeral.WellFormed ∧ numeral.value = word.toInt ∧ piece =
      .identifier entry.identifier :: .equals :: .number (String.ofList numeral.written) :: ignored

theorem IsEntry.printsInteger {piece : List Token} {entry : Meta} (isEntry : IsEntry piece entry) :
    PrintsInteger piece entry := by
  obtain ⟨token, ignored, rfl, denotes⟩ := isEntry
  intro word isInteger
  rw [isInteger] at denotes
  obtain @⟨⟩ | @⟨text, value, numeral, least, most⟩ := denotes
  obtain ⟨wellFormed, rfl⟩ := (Numeral.signed?_eq_some_iff text.toList value).mp numeral
  refine ⟨Numeral.ofText text.toList, ignored, wellFormed, ?_, ?_⟩
  · exact (Int64.toInt_ofInt_of_le least most).symm
  · rw [Numeral.written_ofText, String.ofList_toList]

end Header

/-! ### Match offsets -/

namespace MatchLine

/-- A number without sign is decoded as a machine word where its value is one, and is a violation
elsewhere. -/
structure Decodes (text : String) (span : Span) (value : Nat) : Prop where
  within (most : value < UInt64.size) :
    ∃ word : UInt64, word.toNat = value ∧ decodeOffset ⟨.number text, span⟩ = .ok word
  beyond (outside : UInt64.size ≤ value) :
    decodeOffset ⟨.number text, span⟩ = .error (.numericDecode text span)

theorem decodes_of_unsigned? {text : String} {value : Nat} (span : Span)
    (numeral : Text.unsigned? text.toList = some value) : Decodes text span value := by
  constructor
  · intro most
    refine ⟨UInt64.ofNat value, UInt64.toNat_ofNat_of_lt' most, ?_⟩
    rw [decodeOffset, Token.text, offset?, numeral]
    dsimp only
    rw [if_pos most]
  · intro outside
    rw [decodeOffset, Token.text, offset?, numeral]
    dsimp only
    rw [if_neg (Nat.not_lt.mpr outside)]

/-- A decoded offset is the value of its numeral. -/
theorem exists_numeral_of_decodeOffset {lexeme : Lexeme} {word : UInt64}
    (decoded : decodeOffset lexeme = .ok word) :
    ∃ numeral : Numeral, numeral.WellFormed ∧ numeral.value = word.toNat ∧
      numeral.written = lexeme.token.text.toList := by
  unfold decodeOffset offset? at decoded
  cases read : Text.unsigned? lexeme.token.text.toList with
  | none =>
    rw [read] at decoded
    cases decoded
  | some value =>
    rw [read] at decoded
    dsimp only at decoded
    by_cases most : value < UInt64.size
    · rw [if_pos most] at decoded
      obtain rfl := Except.ok.inj decoded
      obtain ⟨wellFormed, magnitude⟩ := (Numeral.unsigned?_eq_some_iff false _ value).mp read
      refine ⟨_, wellFormed, ?_, Numeral.written_ofUnsigned false _⟩
      rw [Numeral.value, Numeral.negative_ofUnsigned, magnitude, UInt64.toNat_ofNat_of_lt' most]
      rfl
    · rw [if_neg most] at decoded
      cases decoded

/-- What a match line prints of its match: the offset stands as a numeral of that value. -/
def PrintsOffset (text : String) (entry : String × Match) : Prop :=
  ∃ (numeral : Numeral) (data : List Char), numeral.WellFormed ∧
    numeral.value = entry.2.offset.toNat ∧
    Reads text.toList [.number (String.ofList numeral.written), .colon, .identifier entry.1, .colon]
      data

/-- What a match line is read off: the tokens of its format, an offset that is decoded, and the data
after them. -/
theorem exists_tokens_of_read {line : Nat} {text : String} {entry : String × Match}
    (read : read line text = .ok entry) :
    ∃ (number : String) (span : Span) (after : Lexer),
      decodeOffset ⟨.number number, span⟩ = .ok entry.2.offset ∧
      Reads text.toList [.number number, .colon, .identifier entry.1, .colon] after.rest ∧
      entry.2.value = after.takeRest.1.token.text := by
  unfold MatchLine.read at read
  split at read
  · cases read
  · rename_i offset colon identifier second after found
    obtain ⟨reads, kinds⟩ := Lexer.reads_of_expectAll found (by decide)
    split at read
    · cases read
    · rename_i word decoded
      obtain rfl := Except.ok.inj read
      simp only [List.map_cons, List.map_nil, shape, List.cons.injEq, and_true] at kinds
      obtain ⟨number, firstColon, name, secondColon⟩ := kinds
      obtain ⟨text, number⟩ := Token.eq_number_of_kind number
      obtain ⟨label, name⟩ := Token.eq_identifier_of_kind name
      simp only [List.map_cons, List.map_nil, number, eq_colon_of_kind firstColon, name,
        eq_colon_of_kind secondColon] at reads
      obtain ⟨token, span⟩ := offset
      obtain rfl : token = .number text := number
      refine ⟨text, span, after, decoded, ?_, rfl⟩
      rw [name]
      exact reads
  · cases read

theorem printsOffset_of_read {line : Nat} {text : String} {entry : String × Match}
    (read : read line text = .ok entry) : PrintsOffset text entry := by
  obtain ⟨number, span, after, decoded, reads, -⟩ := exists_tokens_of_read read
  obtain ⟨numeral, wellFormed, value, written⟩ := exists_numeral_of_decodeOffset decoded
  refine ⟨numeral, after.rest, wellFormed, value, ?_⟩
  rw [written, Token.text, String.ofList_toList]
  exact reads

end MatchLine

/-! ### Delivered rules -/

namespace Reader

variable {lines : List String} {rule : Rule} {part : Section}

/-- A run over lines delivers a rule, at a later header line or at the end. -/
def IsDelivered (lines : List String) (rule : Rule) : Prop :=
  rule ∈ start.history lines ∨ ∃ last, (start.after lines).finish = .ok last ∧ rule ∈ last

/-- What a section prints of its rule: every integer at its place in the header line, and every
offset on its own match line. -/
structure Section.Prints (part : Section) (rule : Rule) : Prop where
  integers : ∃ (shape : Header.Shape) (rest : List Char),
    Reads part.header.1.toList shape.tokens rest ∧
      List.Forall₂ Header.PrintsInteger (shape.metadataPieces.filter Header.isNamed) rule.metadata
  offsets : List.Forall₂ (fun line entry => MatchLine.PrintsOffset line.1 entry)
    part.matchLines rule.found

/-- A section prints the numbers of the rule that it denotes. -/
theorem Section.Denotes.prints (denotes : part.Denotes rule) : part.Prints rule := by
  obtain ⟨bare, outcome, found, reads, rfl⟩ := denotes
  obtain ⟨shape, bracketed, rest, tokens⟩ := Header.exists_shape _ outcome
  have makes := (Header.read_ok_iff _ tokens bracketed bare).mp outcome
  constructor
  · refine ⟨shape, rest, tokens, ?_⟩
    rw [Rule.foldl_pushMatch_eq]
    exact makes.metadata.imp fun _ _ => Header.IsEntry.printsInteger
  · have same := Rule.found_pushAll makes.strings found
    rw [Rule.pushAll] at same
    rw [same]
    exact reads.imp fun _ _ => MatchLine.printsOffset_of_read

/-- The lines of a section stand in a row among the lines that it is a section of. -/
theorem sublist_of_mem_sections {lines : List Numbered} (member : part ∈ sections lines) :
    (part.header :: part.matchLines).Sublist lines := by
  induction lines with
  | nil => cases member
  | cons line lines inductionHypothesis =>
    rw [sections] at member
    split at member
    · rcases List.mem_cons.mp member with rfl | later
      · refine List.Sublist.cons_cons line ?_
        exact List.filter_sublist.trans (List.takeWhile_sublist _)
      · exact (inductionHypothesis later).cons line
    · exact (inductionHypothesis member).cons line

/-- A delivered rule is denoted by a section of the lines that are read before any violation. -/
theorem exists_section (delivered : IsDelivered lines rule) :
    ∃ before, before <+: lines ∧ ∃ part ∈ sections (before.zipIdx 1), part.Denotes rule := by
  rcases accepts_or_rejects start lines with
    accepted | ⟨before, line, later, violation, rfl, accepted, violates⟩
  · obtain ⟨-, -, rules, delivers⟩ := delivers_of_accepts accepted
    refine ⟨lines, List.prefix_refl lines, exists_mem_of_forall₂ delivers.denotes.flip rule ?_⟩
    rcases delivered with early | ⟨last, finished, member⟩
    · rw [delivers.delivered] at early
      exact List.dropLast_subset _ early
    · rw [delivers.finishes] at finished
      obtain rfl := Except.ok.inj finished
      exact List.mem_of_mem_getLast? (Option.mem_toList.mp member)
  · obtain ⟨-, -, rules, delivers⟩ := delivers_of_accepts accepted
    obtain ⟨failed, -⟩ := rejected_line accepted violates
    refine ⟨before, List.prefix_append before _, exists_mem_of_forall₂ delivers.denotes.flip rule ?_⟩
    rw [IsDelivered, List.append_cons, history_append, history_failed failed,
      after_append _ (before ++ [line]), after_failed failed, finish_failed failed, List.append_nil,
      history_append, List.mem_append, delivers.delivered] at delivered
    rcases delivered with (early | handed) | ⟨last, finished, -⟩
    · exact List.dropLast_subset _ early
    · have handed : rule ∈ ((start.after before).feed line).delivered := by
        rwa [history_cons, history, steps, List.flatMap_nil, List.append_nil] at handed
      rw [delivers.handedOver] at handed
      split at handed
      · exact List.mem_of_mem_getLast? (Option.mem_toList.mp handed)
      · cases handed
    · cases finished

/-- What a run delivers is denoted by a section of its lines. -/
theorem denoted_of_delivered (delivered : IsDelivered lines rule) :
    ∃ part : Section, (part.header :: part.matchLines).Sublist (lines.zipIdx 1) ∧
      part.Denotes rule := by
  obtain ⟨before, ⟨later, rfl⟩, part, member, denotes⟩ := exists_section delivered
  refine ⟨part, (sublist_of_mem_sections member).trans ?_, denotes⟩
  rw [List.zipIdx_append]
  exact List.sublist_append_left _ _

/-- What a run delivers is printed in its lines: in a header line and match lines after it. -/
theorem printed_of_delivered (delivered : IsDelivered lines rule) :
    ∃ part : Section, (part.header :: part.matchLines).Sublist (lines.zipIdx 1) ∧
      part.Prints rule := by
  obtain ⟨part, among, denotes⟩ := denoted_of_delivered delivered
  exact ⟨part, among, denotes.prints⟩

end Reader

/-! ### Numbers -/

/-- Whatever the lexer takes for a number is a numeral of one value. It is decoded to the machine
word of that value where there is one, and is a violation that names it where there is none; the
wide word in between is never the one that cannot be negated. All integers and offsets that a run
delivers are values of numerals at their places in its lines. -/
theorem numbers_decode :
    (∀ (text : String) (span : Span), Token.ofWord text.toList = .number text →
      ∃ numeral : Numeral,
        (∀ other : Numeral, other.WellFormed ∧ other.written = text.toList ↔ other = numeral) ∧
        Header.Decodes text span numeral.value ∧
        (∀ magnitude, Header.magnitude? (Text.splitSign text.toList).2 = some magnitude →
          magnitude.negOverflow = false) ∧
        (numeral.negative = false → MatchLine.Decodes text span numeral.magnitude)) ∧
      ∀ (lines : List String) (rule : Rule), Reader.IsDelivered lines rule →
        ∃ part : Reader.Section, (part.header :: part.matchLines).Sublist (lines.zipIdx 1) ∧
          part.Prints rule := by
  refine ⟨fun text span number => ?_, fun lines rule => Reader.printed_of_delivered⟩
  have wellFormed : (Numeral.ofText text.toList).WellFormed := by
    rw [← Token.isNumeral_iff]
    by_contra name
    rw [Token.ofWord_of_not_isNumeral (Bool.eq_false_iff.mpr name)] at number
    cases number
  refine ⟨Numeral.ofText text.toList, Numeral.eq_ofText_iff wellFormed, ?_,
    fun _ => Header.not_negOverflow_magnitude, fun unsigned => ?_⟩
  · exact Header.decodes_of_signed? span
      ((Numeral.signed?_eq_some_iff _ _).mpr ⟨wellFormed, rfl⟩)
  · exact MatchLine.decodes_of_unsigned? span
      (Numeral.unsigned?_of_not_negative wellFormed unsigned)

/-- The magnitude of the least integer is an offset and no integer, but negated it is one. -/
theorem numbers_decode_least :
    Token.ofWord "0x8000000000000000".toList = .number "0x8000000000000000" ∧
      Header.metadataValue ⟨.number "0x8000000000000000", ⟨1, 5, 4, 22⟩⟩ =
        .error (.numericDecode "0x8000000000000000" ⟨1, 5, 4, 22⟩) ∧
      (∃ word : UInt64, word.toNat = 0x8000000000000000 ∧
        MatchLine.decodeOffset ⟨.number "0x8000000000000000", ⟨1, 5, 4, 22⟩⟩ = .ok word) ∧
      Token.ofWord "-0x8000000000000000".toList = .number "-0x8000000000000000" ∧
      ∃ word : Int64, word.toInt = -0x8000000000000000 ∧
        Header.metadataValue ⟨.number "-0x8000000000000000", ⟨1, 5, 4, 23⟩⟩ =
          .ok (.integer word) := by
  obtain ⟨numeral, unique, integer, -, offset⟩ :=
    numbers_decode.1 "0x8000000000000000" ⟨1, 5, 4, 22⟩ (by decide)
  obtain ⟨negated, uniqueNegated, integerNegated, -, -⟩ :=
    numbers_decode.1 "-0x8000000000000000" ⟨1, 5, 4, 23⟩ (by decide)
  obtain rfl := (unique ⟨false, .hexadecimal false, "8000000000000000".toList⟩).mp
    ⟨⟨by decide, List.all_eq_true.mp (by decide)⟩, by decide⟩
  obtain rfl := (uniqueNegated ⟨true, .hexadecimal false, "8000000000000000".toList⟩).mp
    ⟨⟨by decide, List.all_eq_true.mp (by decide)⟩, by decide⟩
  exact ⟨by decide, integer.beyond (by decide), (offset rfl).within (by decide), by decide,
    integerNegated.within (by decide) (by decide)⟩

end YaraReport
