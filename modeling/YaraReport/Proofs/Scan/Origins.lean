/-
This file proves where the texts of a rule come from. Tokens are stretches of the line
that they are read off, and so is the data of a match. So every text of a rule that a run
delivers stands in one of the lines of the run, just as it is: only a metadata value is
changed afterwards, where its escapes are resolved.
-/

import YaraReport.Proofs.Scan.Numbers

namespace YaraReport

open Token (Reads)

/-- Whether a text stands in one of some lines. -/
def StandsIn (lines : List String) (text : String) : Prop :=
  ∃ line ∈ lines, text.toList <:+: line.toList

/-! ### Tokens -/

namespace Token

/-- What is read off a text stands in it, and what is left is its end. -/
theorem infix_of_reads {text rest : List Char} {tokens : List Token}
    (reads : Reads text tokens rest) :
    (∀ token ∈ tokens, token.written <:+: text) ∧ rest <:+ text := by
  induction tokens generalizing text with
  | nil =>
    cases reads
    simp
  | cons token tokens inductionHypothesis =>
    obtain ⟨gap, middle, -, rfl, -, -, others⟩ := MatchLine.exists_gap_of_reads reads
    obtain ⟨written, left⟩ := inductionHypothesis others
    have tail : middle <:+ gap ++ (token.written ++ middle) :=
      ⟨gap ++ token.written, List.append_assoc _ _ _⟩
    refine ⟨List.forall_mem_cons.mpr ⟨?_, fun other member => ?_⟩, left.trans tail⟩
    · exact ⟨gap, middle, List.append_assoc _ _ _⟩
    · exact (written other member).trans tail.isInfix

theorem text_infix_written (token : Token) : token.text.toList <:+: token.written := by
  cases token with
  | string raw => exact ⟨['"'], ['"'], rfl⟩
  | _ => exact List.infix_refl _

theorem written_infix_of_reads {text rest : List Char} {tokens : List Token}
    (reads : Reads text tokens rest) {token : Token} (member : token ∈ tokens) :
    token.written <:+: text :=
  (infix_of_reads reads).1 token member

theorem text_infix_of_reads {text rest : List Char} {tokens : List Token}
    (reads : Reads text tokens rest) {token : Token} (member : token ∈ tokens) :
    token.text.toList <:+: text :=
  token.text_infix_written.trans (written_infix_of_reads reads member)

/-- A quoted string is read off a text that holds it with its quotes. -/
theorem quoted_infix_of_reads {text rest : List Char} {tokens : List Token}
    (reads : Reads text tokens rest) {raw : String} (member : Token.string raw ∈ tokens) :
    ("\"" ++ raw ++ "\"").toList <:+: text := by
  have quoted : ("\"" ++ raw ++ "\"").toList = (Token.string raw).written := by
    simp [written]
  rw [quoted]
  exact written_infix_of_reads reads member

end Token

/-! ### Headers -/

namespace Header

theorem subset_of_mem_splitOn {tokens piece : List Token}
    (member : piece ∈ tokens.splitOn .comma) : piece ⊆ tokens := by
  induction tokens using Text.stretches_induction Token.comma with
  | last stretch whole =>
    rw [List.splitOn_eq_singleton whole, List.mem_singleton] at member
    rw [member]
    exact List.Subset.refl stretch
  | more stretch rest whole inductionHypothesis =>
    rw [List.splitOn_append_cons_self_of_not_mem whole, List.mem_cons] at member
    rcases member with rfl | later
    · exact List.subset_append_left piece _
    · exact fun token inside =>
        List.mem_append_right _ (List.mem_cons_of_mem _ (inductionHypothesis later inside))

theorem exists_token_of_tagOf? {piece : List Token} {tag : String}
    (found : tagOf? piece = some tag) : ∃ token ∈ piece, token.text = tag := by
  unfold tagOf? at found
  split at found
  · exact ⟨_, List.mem_cons_self, Option.some.inj found⟩
  · exact ⟨_, List.mem_cons_self, Option.some.inj found⟩
  · exact ⟨_, List.mem_cons_self, Option.some.inj found⟩
  · cases found

namespace Shape

variable {shape : Shape} {piece : List Token} {token : Token}

theorem mem_tokens_of_tag (member : piece ∈ shape.tagPieces) (inside : token ∈ piece) :
    token ∈ shape.tokens := by
  have own := subset_of_mem_splitOn member inside
  simp [tokens, own]

theorem mem_tokens_of_metadata (member : piece ∈ shape.metadataPieces) (inside : token ∈ piece) :
    token ∈ shape.tokens := by
  have own := subset_of_mem_splitOn member inside
  simp [tokens, own]

/-- The texts of a header stand in the text that it is read off. -/
theorem Makes.infix {text rest : List Char} (reads : Reads text shape.tokens rest) {rule : Rule}
    (makes : shape.Makes rule) :
    rule.identifier.toList <:+: text ∧ (∀ tag ∈ rule.tags, tag.toList <:+: text) ∧
      ∀ entry ∈ rule.metadata, entry.identifier.toList <:+: text ∧
        ∀ value, entry.value = .string value →
          ∃ raw : String, ("\"" ++ raw ++ "\"").toList <:+: text ∧ value = Text.unescaped raw := by
  refine ⟨?_, fun tag member => ?_, fun entry member => ?_⟩
  · have first : Token.identifier shape.name ∈ shape.tokens := List.mem_cons_self
    have stands := Token.text_infix_of_reads reads first
    rw [makes.identifier]
    exact stands
  · rw [makes.tags] at member
    obtain ⟨piece, among, found⟩ := List.mem_filterMap.mp member
    obtain ⟨token, inside, rfl⟩ := exists_token_of_tagOf? found
    exact Token.text_infix_of_reads reads (mem_tokens_of_tag among inside)
  · obtain ⟨piece, named, token, ignored, rfl, denotes⟩ :=
      exists_mem_of_forall₂ makes.metadata.flip entry member
    have own {token : Token} (inside : token ∈ _) : token ∈ shape.tokens :=
      mem_tokens_of_metadata (List.mem_filter.mp named).1 inside
    have first : Token.identifier entry.identifier ∈ shape.tokens := own List.mem_cons_self
    refine ⟨Token.text_infix_of_reads reads first, fun value same => ?_⟩
    rw [same] at denotes
    obtain ⟨raw⟩ := denotes
    exact ⟨raw, Token.quoted_infix_of_reads reads (own (by simp)), rfl⟩

end Shape

end Header

/-! ### Match lines -/

/-- The name and the data of a match stand in its line. -/
theorem MatchLine.infix_of_read {line : Nat} {text : String} {entry : String × Match}
    (read : read line text = .ok entry) :
    entry.1.toList <:+: text.toList ∧ entry.2.value.toList <:+: text.toList := by
  obtain ⟨number, span, after, -, reads, data⟩ := exists_tokens_of_read read
  have stands : after.takeRest.1.token.text.toList <:+ after.rest := by
    unfold Lexer.takeRest
    split
    · rename_i rest space
      rw [space]
      exact ⟨[' '], by simp [Token.text, Lexer.advance]⟩
    · exact ⟨[], by simp [Token.text]⟩
  have third : Token.identifier entry.1 ∈
      [.number number, .colon, Token.identifier entry.1, .colon] := by simp
  have name := Token.text_infix_of_reads reads third
  rw [data]
  exact ⟨name, (stands.trans (Token.infix_of_reads reads).2).isInfix⟩

/-! ### Rules -/

/-- What holds of the texts of some matches holds of the texts of their runs: no run is without a
match, and a match brings the name of its string. -/
theorem StringMatch.Groups.forall_texts {runs : List StringMatch} {found : List (String × Match)}
    (groups : Groups runs found) {holds : String → Prop}
    (each : ∀ entry ∈ found, holds entry.1 ∧ holds entry.2.value) :
    ∀ run ∈ runs, holds run.identifier ∧ ∀ occurrence ∈ run.occurrences, holds occurrence.value := by
  intro run member
  have own (occurrence : Match) (inside : occurrence ∈ run.occurrences) :
      holds run.identifier ∧ holds occurrence.value := by
    refine each (run.identifier, occurrence) ?_
    rw [← groups.entries]
    exact List.mem_flatMap.mpr ⟨run, member, List.mem_map_of_mem inside⟩
  obtain ⟨occurrence, inside⟩ := List.exists_mem_of_ne_nil _ (groups.nonempty run member)
  exact ⟨(own occurrence inside).1, fun occurrence inside => (own occurrence inside).2⟩

/-- The texts of a rule stand in lines, but a metadata value stands there between quotes, and may
have escapes. -/
structure Rule.DrawnFrom (lines : List String) (rule : Rule) : Prop where
  identifier : StandsIn lines rule.identifier
  tags : ∀ tag ∈ rule.tags, StandsIn lines tag
  names : ∀ entry ∈ rule.metadata, StandsIn lines entry.identifier
  values : ∀ entry ∈ rule.metadata, ∀ value, entry.value = .string value →
    ∃ raw, StandsIn lines ("\"" ++ raw ++ "\"") ∧ value = Text.unescaped raw
  strings : ∀ run ∈ rule.strings, StandsIn lines run.identifier
  data : ∀ run ∈ rule.strings, ∀ occurrence ∈ run.occurrences, StandsIn lines occurrence.value

/-- A rule that a run delivers has its texts from the lines of the run. -/
theorem Reader.drawnFrom_of_delivered {lines : List String} {rule : Rule}
    (delivered : IsDelivered lines rule) : rule.DrawnFrom lines := by
  obtain ⟨part, among, bare, outcome, found, reads, same⟩ := denoted_of_delivered delivered
  have line (numbered : Numbered) (member : numbered ∈ part.header :: part.matchLines) :
      numbered.1 ∈ lines := by
    have inside := List.mem_map_of_mem (f := Prod.fst) (among.subset member)
    rwa [List.zipIdx_map_fst] at inside
  have header := line part.header List.mem_cons_self
  obtain ⟨shape, bracketed, rest, tokens⟩ := Header.exists_shape _ outcome
  have makes := (Header.read_ok_iff _ tokens bracketed bare).mp outcome
  obtain ⟨identifier, tags, metadata⟩ := makes.infix tokens
  have texts : ∀ entry ∈ found, StandsIn lines entry.1 ∧ StandsIn lines entry.2.value := by
    intro entry member
    obtain ⟨numbered, listed, read⟩ := exists_mem_of_forall₂ reads.flip entry member
    have stands := line numbered (List.mem_cons_of_mem _ listed)
    obtain ⟨name, data⟩ := MatchLine.infix_of_read read
    exact ⟨⟨_, stands, name⟩, ⟨_, stands, data⟩⟩
  rw [Rule.foldl_pushMatch_eq, makes.strings] at same
  subst same
  have runs := ((StringMatch.foldl_add_eq_iff found _).mp rfl).forall_texts texts
  refine ⟨⟨_, header, identifier⟩, fun tag member => ⟨_, header, tags tag member⟩,
    fun entry member => ⟨_, header, (metadata entry member).1⟩,
    fun entry member value same => ?_, fun run member => (runs run member).1,
    fun run member => (runs run member).2⟩
  obtain ⟨raw, inside, resolved⟩ := (metadata entry member).2 value same
  exact ⟨raw, ⟨_, header, inside⟩, resolved⟩

end YaraReport
