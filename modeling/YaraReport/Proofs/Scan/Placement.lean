/-
This file proves that everything read off a line is placed where it stands. A
lexer in a line keeps the number of the line, counts the characters and bytes
before it and holds the rest; so the span of a token covers the text of that
token, and every violation names its line and quotes what its span covers.

The main statements are `Header.read_violation` and `MatchLine.read_violation`.
-/

import YaraReport.Proofs.Token.Reading
import YaraReport.Scan.Reader

namespace YaraReport

/-- A span covers a part of a line that stands after some text and before another. -/
def Span.Covers (line : Nat) (text : List Char) (span : Span) (part : List Char) : Prop :=
  ∃ before after, text = before ++ (part ++ after) ∧
    span = ⟨line, before.length + 1, Lexer.byteLength before,
      Lexer.byteLength before + Lexer.byteLength part⟩

theorem Span.Covers.line_eq {line : Nat} {text part : List Char} {span : Span}
    (covers : span.Covers line text part) : span.line = line := by
  obtain ⟨before, after, -, rfl⟩ := covers
  rfl

/-- A lexeme stands in a line. -/
def Lexeme.In (line : Nat) (text : List Char) (lexeme : Lexeme) : Prop :=
  lexeme.span.Covers line text lexeme.token.written

/-- A group stands in a line. -/
def Group.In (line : Nat) (text : List Char) (group : Group) : Prop :=
  (∀ lexeme ∈ group.body, lexeme.In line text) ∧ group.stop.In line text

/-- A violation is placed in a line, where what it quotes stands. -/
def Violation.In (line : Nat) (text : List Char) : Violation → Prop
  | .unexpectedToken _ found span => span.Covers line text found.written
  | .unexpectedEnd _ span => ∃ part, span.Covers line text part
  | .orphanMatch number => number = line
  | .numericDecode numeral span => span.Covers line text numeral.toList
  | .invalidBoolean word span => span.Covers line text word.toList
  | .lex error => ∃ part, error.span.Covers line text part
  | .aborted => False

theorem Violation.In.line?_eq {line : Nat} {text : List Char} {violation : Violation}
    (placed : violation.In line text) : violation.line? = some line := by
  cases violation with
  | unexpectedToken _ found span => exact congrArg some placed.line_eq
  | unexpectedEnd _ span =>
    obtain ⟨part, covers⟩ := placed
    exact congrArg some covers.line_eq
  | orphanMatch number => exact congrArg some placed
  | numericDecode _ span => exact congrArg some placed.line_eq
  | invalidBoolean _ span => exact congrArg some placed.line_eq
  | lex error =>
    obtain ⟨part, covers⟩ := placed
    exact congrArg some covers.line_eq
  | aborted => exact placed.elim

namespace Lexer

/-- A lexer stands in a line: it counts what is before it and holds the rest. -/
def In (line : Nat) (text : List Char) (lexer : Lexer) : Prop :=
  ∃ before, text = before ++ lexer.rest ∧
    lexer = ⟨line, before.length + 1, byteLength before, lexer.rest⟩

theorem byteLength_append (first second : List Char) :
    byteLength (first ++ second) = byteLength first + byteLength second := by
  induction first with
  | nil => exact (Nat.zero_add _).symm
  | cons character rest inductionHypothesis =>
    unfold byteLength at inductionHypothesis ⊢
    rw [List.cons_append, List.foldr_cons, List.foldr_cons, inductionHypothesis, Nat.add_assoc]

theorem ofLine_in (line : Nat) (text : String) : (ofLine text line).In line text.toList :=
  ⟨[], rfl, rfl⟩

variable {line : Nat} {text : List Char} {lexer : Lexer}

/-- Taking what stands next keeps a lexer in its line. -/
theorem In.advance (stands : lexer.In line text) {taken rest : List Char}
    (front : lexer.rest = taken ++ rest) : (lexer.advance taken rest).In line text := by
  obtain ⟨before, whole, same⟩ := stands
  refine ⟨before ++ taken, ?_, ?_⟩
  · rw [whole, front, List.append_assoc]
    rfl
  · rw [same, Lexer.advance, List.length_append, byteLength_append, Nat.add_right_comm]

theorem In.skipBlanks (stands : lexer.In line text) : lexer.skipBlanks.In line text :=
  stands.advance (List.takeWhile_append_dropWhile).symm

/-- The span of what is taken next covers it. -/
theorem In.spanTo (stands : lexer.In line text) {taken rest : List Char}
    (front : lexer.rest = taken ++ rest) :
    (lexer.spanTo (lexer.advance taken rest)).Covers line text taken := by
  obtain ⟨before, whole, same⟩ := stands
  refine ⟨before, rest, by rw [whole, front], ?_⟩
  rw [same]
  rfl

/-- What a token is read off begins with the text of that token. -/
theorem written_of_found {token : Token} {rest : List Char}
    (found : Token.read? (lexer.rest.dropWhile Text.isBlank) = some (token, rest)) :
    lexer.skipBlanks.rest = token.written ++ rest := by
  by_cases empty : token = .empty
  · subst empty
    have front := Token.head?_dropWhile_isBlank lexer.rest
    show lexer.rest.dropWhile Text.isBlank = rest
    cases remaining : lexer.rest.dropWhile Text.isBlank with
    | nil =>
      rw [remaining] at found
      cases found
      rfl
    | cons character tail =>
      rw [remaining] at found front
      exact absurd found (Token.read?_cons_ne_empty (front character rfl) rest)
  · exact (Token.written_of_read? (Token.head?_dropWhile_isBlank lexer.rest) found empty).1

/-- What the lexer yields is placed where it stands. -/
theorem In.next (stands : lexer.In line text) :
    (∀ lexeme after, lexer.next = (.ok lexeme, after) →
      lexeme.In line text ∧ after.In line text) ∧
    ∀ error after, lexer.next = (.error error, after) →
      Violation.In line text (.lex error) := by
  cases found : Token.read? (lexer.rest.dropWhile Text.isBlank) with
  | none =>
    rw [next_of_read?_none found]
    refine ⟨fun lexeme after same => (by cases same), fun error after same => ?_⟩
    cases same
    exact ⟨lexer.skipBlanks.rest,
      stands.skipBlanks.spanTo (List.append_nil lexer.skipBlanks.rest).symm⟩
  | some parts =>
    rw [next_of_read? found]
    refine ⟨fun lexeme after same => ?_, fun error after same => (by cases same)⟩
    cases same
    have front := written_of_found found
    exact ⟨stands.skipBlanks.spanTo front, stands.skipBlanks.advance front⟩

theorem In.expect (stands : lexer.In line text) (kind : Token.Kind) :
    (∀ lexeme after, lexer.expect kind = (.ok lexeme, after) →
      lexeme.In line text ∧ after.In line text) ∧
    ∀ violation after, lexer.expect kind = (.error violation, after) →
      violation.In line text := by
  obtain ⟨yields, fails⟩ := stands.next
  unfold Lexer.expect
  cases read : lexer.next with
  | mk outcome after =>
    cases outcome with
    | error error =>
      refine ⟨fun _ _ same => (by cases same), fun _ _ same => ?_⟩
      cases same
      exact fails error after read
    | ok lexeme =>
      obtain ⟨lexemeStands, afterStands⟩ := yields lexeme after read
      dsimp only
      split
      · refine ⟨fun _ _ same => ?_, fun _ _ same => (by cases same)⟩
        cases same
        exact ⟨lexemeStands, afterStands⟩
      · refine ⟨fun _ _ same => ?_, fun _ _ same => ?_⟩
        · split at same <;> cases same
        · split at same <;> cases same
          · exact ⟨_, lexemeStands⟩
          · exact lexemeStands

theorem In.expectAll (stands : lexer.In line text) (kinds : List Token.Kind) :
    (∀ lexemes after, lexer.expectAll kinds = (.ok lexemes, after) →
      (∀ lexeme ∈ lexemes, lexeme.In line text) ∧ after.In line text) ∧
    ∀ violation after, lexer.expectAll kinds = (.error violation, after) →
      violation.In line text := by
  induction kinds generalizing lexer with
  | nil =>
    refine ⟨fun _ _ same => ?_, fun _ _ same => (by cases same)⟩
    cases same
    exact ⟨fun _ member => absurd member List.not_mem_nil, stands⟩
  | cons kind kinds inductionHypothesis =>
    obtain ⟨yields, fails⟩ := stands.expect kind
    unfold Lexer.expectAll
    split
    · rename_i violation after read
      refine ⟨fun _ _ same => (by cases same), fun _ _ same => ?_⟩
      cases same
      exact fails violation after read
    · rename_i lexeme middle read
      obtain ⟨lexemeStands, middleStands⟩ := yields lexeme middle read
      obtain ⟨yieldsAll, failsAll⟩ := inductionHypothesis middleStands
      split
      · rename_i violation after readAll
        refine ⟨fun _ _ same => (by cases same), fun _ _ same => ?_⟩
        cases same
        exact failsAll violation after readAll
      · rename_i lexemes after readAll
        refine ⟨fun _ _ same => ?_, fun _ _ same => (by cases same)⟩
        cases same
        obtain ⟨others, afterStands⟩ := yieldsAll lexemes after readAll
        refine ⟨fun other member => ?_, afterStands⟩
        rcases List.mem_cons.mp member with rfl | later
        · exact lexemeStands
        · exact others other later

theorem In.nextUntil (stands : lexer.In line text) (stops : List Token.Kind) :
    (∀ group after, Lexer.nextUntil stops lexer = (.ok group, after) →
      group.In line text ∧ after.In line text) ∧
    ∀ error after, Lexer.nextUntil stops lexer = (.error error, after) →
      Violation.In line text (.lex error) := by
  fun_induction Lexer.nextUntil stops lexer with
  | case1 lexer error after found =>
    refine ⟨fun _ _ same => (by cases same), fun _ _ same => ?_⟩
    cases same
    exact stands.next.2 error after found
  | case2 lexer lexeme after found ended =>
    refine ⟨fun _ _ same => ?_, fun _ _ same => (by cases same)⟩
    cases same
    obtain ⟨lexemeStands, afterStands⟩ := stands.next.1 lexeme after found
    exact ⟨⟨fun _ member => absurd member List.not_mem_nil, lexemeStands⟩, afterStands⟩
  | case3 lexer lexeme middle found ended _ error after readTail inductionHypothesis =>
    obtain ⟨-, middleStands⟩ := stands.next.1 lexeme middle found
    refine ⟨fun _ _ same => (by cases same), fun _ _ same => ?_⟩
    cases same
    exact (inductionHypothesis middleStands).2 error after readTail
  | case4 lexer lexeme middle found ended _ tail after readTail inductionHypothesis =>
    obtain ⟨lexemeStands, middleStands⟩ := stands.next.1 lexeme middle found
    obtain ⟨⟨body, stop⟩, afterStands⟩ := (inductionHypothesis middleStands).1 tail after readTail
    refine ⟨fun _ _ same => ?_, fun _ _ same => (by cases same)⟩
    cases same
    refine ⟨⟨fun other member => ?_, stop⟩, afterStands⟩
    rcases List.mem_cons.mp member with rfl | later
    · exact lexemeStands
    · exact body other later

end Lexer

variable {line : Nat} {text : List Char}

namespace Header

theorem tokenAt_in {group : Group} (stands : group.In line text) (position : Nat) :
    (tokenAt group position).In line text := by
  unfold tokenAt
  cases found : group.body[position]? with
  | none => exact stands.2
  | some lexeme => exact stands.1 lexeme (List.mem_of_getElem? found)

theorem entries_in {lexer : Lexer} (stands : lexer.In line text) :
    (∀ group ∈ (entries lexer).groups, group.In line text) ∧
      (∀ violation, (entries lexer).failure = some violation → violation.In line text) ∧
      ((entries lexer).failure = none → (entries lexer).after.In line text) := by
  fun_induction entries lexer with
  | case1 lexer error after found =>
    refine ⟨fun _ member => absurd member List.not_mem_nil, fun _ same => ?_, fun closed => by cases closed⟩
    cases same
    exact (stands.nextUntil _).2 error after found
  | case2 lexer group after found bracket =>
    obtain ⟨groupStands, afterStands⟩ := (stands.nextUntil _).1 group after found
    refine ⟨fun _ member => ?_, fun _ failed => (by cases failed), fun _ => afterStands⟩
    rw [List.mem_singleton.mp member]
    exact groupStands
  | case3 lexer group after found bracket comma _ inductionHypothesis =>
    obtain ⟨groupStands, afterStands⟩ := (stands.nextUntil _).1 group after found
    obtain ⟨groups, fails, closes⟩ := inductionHypothesis afterStands
    refine ⟨fun other member => ?_, fails, closes⟩
    rcases List.mem_cons.mp member with rfl | later
    · exact groupStands
    · exact groups other later
  | case4 lexer group after found =>
    obtain ⟨groupStands, -⟩ := (stands.nextUntil _).1 group after found
    refine ⟨fun _ member => absurd member List.not_mem_nil, fun _ same => ?_, fun closed => by cases closed⟩
    cases same
    exact ⟨_, groupStands.2⟩

theorem unexpected_in {lexeme : Lexeme} (stands : lexeme.In line text)
    (expected : Expectation) : (unexpected expected lexeme).In line text := by
  unfold unexpected
  split
  · exact ⟨_, stands⟩
  · exact ⟨_, stands⟩
  · exact ⟨_, stands⟩
  · exact stands

theorem metadataValue_in {lexeme : Lexeme} (stands : lexeme.In line text)
    {violation : Violation} (failed : metadataValue lexeme = .error violation) :
    violation.In line text := by
  unfold metadataValue at failed
  split at failed
  · cases failed
  · rename_i numeral token
    split at failed <;> cases failed
    rw [Lexeme.In, token] at stands
    exact stands
  · rename_i word token
    split at failed <;> cases failed
    rw [Lexeme.In, token] at stands
    exact stands
  · cases failed
    exact unexpected_in stands _

theorem entry_in {group : Group} (stands : group.In line text) {name : String}
    {violation : Violation} (failed : entry name group = .error violation) :
    violation.In line text := by
  unfold entry at failed
  split at failed
  · cases read : metadataValue (tokenAt group 2) with
    | error cause =>
      rw [read] at failed
      cases failed
      exact metadataValue_in (tokenAt_in stands 2) read
    | ok value =>
      rw [read] at failed
      cases failed
  · cases failed
    exact unexpected_in (tokenAt_in stands 1) _

theorem metadata_in {groups : List Group} (stands : ∀ group ∈ groups, group.In line text)
    {violation : Violation} (failed : (metadata groups).outcome = .error violation) :
    violation.In line text := by
  induction groups with
  | nil => cases failed
  | cons group groups inductionHypothesis =>
    have others := inductionHypothesis fun other member =>
      stands other (List.mem_cons_of_mem _ member)
    rw [metadata] at failed
    split at failed
    · exact others failed
    split at failed
    · split at failed
      · rename_i read
        cases failed
        exact entry_in (stands group List.mem_cons_self) read
      · cases rest : (metadata groups).outcome with
        | error cause =>
          rw [rest] at failed others
          cases failed
          exact others rfl
        | ok values =>
          rw [rest] at failed
          cases failed
    · exact others failed

theorem opening_in {lexer : Lexer} (stands : lexer.In line text) :
    (∀ name after, opening lexer = .ok (name, after) → after.In line text) ∧
      ∀ violation, opening lexer = .error violation → violation.In line text := by
  unfold opening
  split
  · rename_i found
    refine ⟨fun _ _ same => (by cases same), fun _ same => ?_⟩
    cases same
    exact (stands.expect _).2 _ _ found
  rename_i found
  obtain ⟨-, afterStands⟩ := (stands.expect _).1 _ _ found
  split
  · rename_i found
    refine ⟨fun _ _ same => (by cases same), fun _ same => ?_⟩
    cases same
    exact (afterStands.expect _).2 _ _ found
  · rename_i found
    refine ⟨fun _ _ same => ?_, fun _ same => (by cases same)⟩
    cases same
    exact ((afterStands.expect _).1 _ _ found).2

theorem assemble_in {list : Entries} (groups : ∀ group ∈ list.groups, group.In line text)
    (fails : ∀ violation, list.failure = some violation → violation.In line text)
    {name : String} {tagGroups : List Group} {violation : Violation}
    (failed : (assemble name tagGroups list).outcome = .error violation) :
    violation.In line text := by
  unfold assemble at failed
  split at failed
  · rename_i outcome
    cases failed
    exact metadata_in groups outcome
  · rename_i failure
    cases failed
    exact fails _ failure
  · cases failed

theorem closing_in {lexer : Lexer} (stands : lexer.In line text) {name : String}
    {violation : Violation} (failed : (closing name (entries lexer)).outcome = .error violation) :
    violation.In line text := by
  obtain ⟨-, tagsFail, tagsClose⟩ := entries_in stands
  unfold closing at failed
  split at failed
  · rename_i failure
    cases failed
    exact tagsFail _ failure
  rename_i closed
  split at failed
  · rename_i found
    cases failed
    exact ((tagsClose closed).expect _).2 _ _ found
  · rename_i found
    obtain ⟨-, secondStands⟩ := ((tagsClose closed).expect _).1 _ _ found
    obtain ⟨groups, fails, -⟩ := entries_in secondStands
    exact assemble_in groups fails failed

/-- A header line that breaks the format does so at a place in the line. -/
theorem read_violation {line : Nat} {text : String} {violation : Violation}
    (failed : (read line text).outcome = .error violation) :
    violation.In line text.toList := by
  obtain ⟨opens, fails⟩ := opening_in (Lexer.ofLine_in line text)
  unfold read at failed
  split at failed
  · rename_i opened
    cases failed
    exact fails _ opened
  · rename_i opened
    exact closing_in (opens _ _ opened) failed

end Header

/-- A match line that breaks the format does so at a place in the line. -/
theorem MatchLine.read_violation {line : Nat} {text : String} {violation : Violation}
    (failed : read line text = .error violation) : violation.In line text.toList := by
  obtain ⟨yields, fails⟩ := (Lexer.ofLine_in line text).expectAll shape
  unfold read at failed
  split at failed
  · rename_i found
    cases failed
    exact fails _ _ found
  · rename_i offset _ identifier _ after found
    split at failed
    · rename_i undecoded
      cases failed
      rw [decodeOffset_error undecoded]
      obtain ⟨stands, -⟩ := yields _ _ found
      obtain ⟨-, kinds⟩ := Lexer.reads_of_expectAll found (by decide)
      obtain ⟨numeral, number⟩ := Token.eq_number_of_kind (List.cons.inj kinds).1
      have offsetStands := stands offset List.mem_cons_self
      rw [Lexeme.In, number] at offsetStands
      rw [number]
      exact offsetStands
    · cases failed
  · -- Only four tokens are read, so this branch is never taken.
    rename_i lexemes after few found
    obtain ⟨-, kinds⟩ := Lexer.reads_of_expectAll found (by decide)
    obtain ⟨first, _, rfl, -, kinds⟩ := List.map_eq_cons_iff.mp kinds
    obtain ⟨second, _, rfl, -, kinds⟩ := List.map_eq_cons_iff.mp kinds
    obtain ⟨third, _, rfl, -, kinds⟩ := List.map_eq_cons_iff.mp kinds
    obtain ⟨fourth, _, rfl, -, kinds⟩ := List.map_eq_cons_iff.mp kinds
    obtain rfl := List.map_eq_nil_iff.mp kinds
    exact absurd rfl (few first second third fourth)

end YaraReport
