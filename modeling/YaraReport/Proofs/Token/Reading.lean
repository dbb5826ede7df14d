/-
This file says what reading tokens off a line comes to, leaving places aside: a
text begins with certain tokens, and something follows them. The lexer's
operations are tied to this relation once, so that the formats of whole lines
can be described by their tokens alone.

The main statements are `Lexer.next_ok_iff`, `Lexer.nextUntil_of_reads` and
`Lexer.reads_of_nextUntil`, which say which tokens the lexer's operations take
off a text, and `Reads.swap_rest`: what follows a delimiter has no part in the
tokens up to it.
-/

import YaraReport.Token.Cursor
import YaraReport.Proofs.Token.Written

namespace YaraReport

namespace Token

/-- A text begins with the given tokens, any blanks before each of them left aside, and `rest`
follows. -/
inductive Reads : List Char → List Token → List Char → Prop where
  | done (text : List Char) : Reads text [] text
  | next {text middle rest : List Char} {token : Token} {tokens : List Token}
      (first : read? (text.dropWhile Text.isBlank) = some (token, middle))
      (visible : token ≠ .empty) (others : Reads middle tokens rest) :
      Reads text (token :: tokens) rest

namespace Reads

theorem single {text rest : List Char} {token : Token}
    (first : read? (text.dropWhile Text.isBlank) = some (token, rest))
    (visible : token ≠ .empty) : Reads text [token] rest :=
  next first visible (done rest)

/-- Tokens, and then the tokens of what follows them. -/
theorem append {text middle rest : List Char} {former latter : List Token}
    (reads : Reads text former middle) (more : Reads middle latter rest) :
    Reads text (former ++ latter) rest := by
  induction reads with
  | done => exact more
  | next first visible _ inductionHypothesis =>
    exact next first visible (inductionHypothesis more)

/-- Tokens can be read in two parts. -/
theorem split {text rest : List Char} {former latter : List Token}
    (reads : Reads text (former ++ latter) rest) :
    ∃ middle, Reads text former middle ∧ Reads middle latter rest := by
  induction former generalizing text with
  | nil => exact ⟨text, done text, reads⟩
  | cons token tokens inductionHypothesis =>
    cases reads with
    | next first visible others =>
      obtain ⟨middle, before, after⟩ := inductionHypothesis others
      exact ⟨middle, next first visible before, after⟩

theorem cons_inv {text rest : List Char} {token : Token} {tokens : List Token}
    (reads : Reads text (token :: tokens) rest) :
    ∃ middle, read? (text.dropWhile Text.isBlank) = some (token, middle) ∧ token ≠ .empty ∧
      Reads middle tokens rest := by
  cases reads with
  | next first visible others => exact ⟨_, first, visible, others⟩

/-- A token is read off its own text with blanks before it. -/
theorem first_written {gap rest : List Char} {token : Token}
    (blank : ∀ character ∈ gap, Text.isBlank character = true) (proper : token.Proper)
    (ends : token.isWord = true → EndsWord rest) :
    read? ((gap ++ (token.written ++ rest)).dropWhile Text.isBlank) = some (token, rest) := by
  obtain ⟨character, tail, front, visible⟩ := written_visible proper
  have stays : (token.written ++ rest).dropWhile Text.isBlank = token.written ++ rest := by
    rw [front, List.cons_append, List.dropWhile_cons_of_neg]
    rw [visible]
    exact Bool.false_ne_true
  rw [List.dropWhile_append_of_pos blank, stays, read?_written proper ends]

/-- The text of a token begins with it, and the text of others may follow. -/
theorem written_append {text rest : List Char} {token : Token} {tokens : List Token}
    (proper : token.Proper) (ends : token.isWord = true → EndsWord text)
    (others : Reads text tokens rest) : Reads (token.written ++ text) (token :: tokens) rest :=
  next (first_written (fun _ member => absurd member List.not_mem_nil) proper ends)
    (ne_empty_of_proper proper) others

/-- What a text holds before its first tokens end, and that anything which does not prolong the
last of them may follow it. -/
theorem exists_front {text rest : List Char} {tokens : List Token}
    (reads : Reads text tokens rest) :
    ∃ front, text = front ++ rest ∧ (tokens ≠ [] → front ≠ []) ∧
      ∀ other, (∀ last ∈ tokens.getLast?, last.isWord = true → EndsWord other) →
        Reads (front ++ other) tokens other := by
  induction reads with
  | done text => exact ⟨[], rfl, fun some => absurd rfl some, fun other _ => done other⟩
  | @next text middle rest token tokens first visible others inductionHypothesis =>
    obtain ⟨tail, same, extends_, swaps⟩ := inductionHypothesis
    obtain ⟨written, proper, ends⟩ :=
      written_of_read? (head?_dropWhile_isBlank text) first visible
    refine ⟨text.takeWhile Text.isBlank ++ (token.written ++ tail), ?_, fun _ => ?_, ?_⟩
    · rw [List.append_assoc, List.append_assoc, ← same, ← written,
        List.takeWhile_append_dropWhile]
    · obtain ⟨character, others, front, -⟩ := written_visible proper
      rw [front, List.cons_append]
      exact List.append_ne_nil_of_right_ne_nil _ (List.cons_ne_nil _ _)
    · intro other lastEnds
      rw [List.append_assoc, List.append_assoc]
      refine next (first_written ?_ proper ?_) visible (swaps other ?_)
      · exact fun character member => List.all_eq_true.mp List.all_takeWhile character member
      · -- Either the word ends in what was read after it, or it is the last token.
        intro word
        cases tail with
        | cons character others =>
          intro next member
          exact ends word next (by rw [same]; exact member)
        | nil =>
          cases tokens with
          | nil => exact lastEnds token rfl word
          | cons => exact absurd rfl (extends_ (List.cons_ne_nil _ _))
      · intro last member
        refine lastEnds last ?_
        cases tokens with
        | nil => cases member
        | cons => exact member

/-- Every token takes at least one character. -/
theorem length_le {text rest : List Char} {tokens : List Token}
    (reads : Reads text tokens rest) : tokens.length + rest.length ≤ text.length := by
  induction reads with
  | done text => exact Nat.le_of_eq (Nat.zero_add text.length)
  | @next text middle rest token tokens first visible _ inductionHypothesis =>
    obtain ⟨written, proper, -⟩ := written_of_read? (head?_dropWhile_isBlank text) first visible
    obtain ⟨character, tail, front, -⟩ := written_visible proper
    have shorter := Lexer.dropWhile_length_le Text.isBlank text
    rw [written, front, List.cons_append, List.length_cons, List.length_append] at shorter
    rw [List.length_cons]
    omega

/-- What follows a delimiter or a string has no part in the tokens up to it. -/
theorem swap_rest {front rest : List Char} {tokens : List Token} {last : Token}
    (reads : Reads (front ++ rest) (tokens ++ [last]) rest) (closes : last.isWord = false)
    (other : List Char) : Reads (front ++ other) (tokens ++ [last]) other := by
  obtain ⟨own, same, -, swaps⟩ := reads.exists_front
  rw [List.append_cancel_right same]
  refine swaps other fun token member word => ?_
  rw [List.getLast?_append, List.getLast?_singleton] at member
  cases member
  exact absurd (closes.symm.trans word) Bool.false_ne_true

end Reads

end Token

namespace Lexer

open Token

/-! ### The lexer's operations -/

/-- The lexer yields the token at the front of its text, which stands after the blanks. -/
theorem next_of_read? {lexer : Lexer} {token : Token} {rest : List Char}
    (first : read? (lexer.rest.dropWhile Text.isBlank) = some (token, rest)) :
    lexer.next =
      (.ok ⟨token, lexer.skipBlanks.spanTo (lexer.skipBlanks.advance token.written rest)⟩,
        lexer.skipBlanks.advance token.written rest) := by
  have front : read? lexer.skipBlanks.rest = some (token, rest) := first
  simp only [next, front]

/-- Where no token can be read the lexer takes the whole line. -/
theorem next_of_read?_none {lexer : Lexer}
    (none : read? (lexer.rest.dropWhile Text.isBlank) = none) :
    lexer.next =
      (.error (.unterminatedString
          (lexer.skipBlanks.spanTo (lexer.skipBlanks.advance lexer.skipBlanks.rest []))),
        lexer.skipBlanks.advance lexer.skipBlanks.rest []) := by
  have front : read? lexer.skipBlanks.rest = .none := none
  simp only [next, front]

/-- What the lexer reads is the token at the front of its text after the blanks. -/
theorem next_ok_iff (lexer : Lexer) (token : Token) (rest : List Char) :
    (∃ lexeme after, lexer.next = (.ok lexeme, after) ∧ lexeme.token = token ∧
        after.rest = rest) ↔
      read? (lexer.rest.dropWhile Text.isBlank) = some (token, rest) := by
  constructor
  · rintro ⟨lexeme, after, read, rfl, rfl⟩
    cases found : read? (lexer.rest.dropWhile Text.isBlank) with
    | none =>
      rw [next_of_read?_none found] at read
      cases read
    | some parts =>
      rw [next_of_read? found] at read
      cases read
      rfl
  · intro first
    exact ⟨_, _, next_of_read? first, rfl, rfl⟩

theorem read?_of_next {lexer after : Lexer} {lexeme : Lexeme}
    (read : lexer.next = (.ok lexeme, after)) :
    read? (lexer.rest.dropWhile Text.isBlank) = some (lexeme.token, after.rest) :=
  (next_ok_iff lexer lexeme.token after.rest).mp ⟨lexeme, after, read, rfl, rfl⟩

/-- A token of the expected kind is read. -/
theorem expect_of_read? (lexer : Lexer) {token : Token} {rest : List Char}
    (first : read? (lexer.rest.dropWhile Text.isBlank) = some (token, rest)) :
    ∃ lexeme after, lexer.expect token.kind = (.ok lexeme, after) ∧ lexeme.token = token ∧
      after.rest = rest := by
  obtain ⟨lexeme, after, read, rfl, rfl⟩ := (next_ok_iff lexer _ _).mpr first
  refine ⟨lexeme, after, ?_, rfl, rfl⟩
  unfold expect
  rw [read]
  exact if_pos rfl

theorem read?_of_expect {lexer after : Lexer} {kind : Token.Kind} {lexeme : Lexeme}
    (read : lexer.expect kind = (.ok lexeme, after)) :
    read? (lexer.rest.dropWhile Text.isBlank) = some (lexeme.token, after.rest) ∧
      lexeme.token.kind = kind := by
  unfold expect at read
  split at read
  · cases read
  · rename_i found
    split at read
    · rename_i same
      cases read
      exact ⟨read?_of_next found, same⟩
    · split at read <;> cases read

/-- Tokens of the expected kinds are read one after the other. -/
theorem expectAll_of_reads (lexer : Lexer) {tokens : List Token} {rest : List Char}
    (reads : Reads lexer.rest tokens rest) :
    ∃ lexemes after, lexer.expectAll (tokens.map Token.kind) = (.ok lexemes, after) ∧
      lexemes.map Lexeme.token = tokens ∧ after.rest = rest := by
  induction tokens generalizing lexer with
  | nil =>
    cases reads
    exact ⟨[], lexer, rfl, rfl, rfl⟩
  | cons token tokens inductionHypothesis =>
    obtain ⟨middle, first, -, others⟩ := reads.cons_inv
    obtain ⟨lexeme, middle, read, rfl, rfl⟩ := expect_of_read? lexer first
    obtain ⟨lexemes, after, readAll, rfl, left⟩ := inductionHypothesis middle others
    refine ⟨lexeme :: lexemes, after, ?_, rfl, left⟩
    rw [List.map_cons, expectAll, read]
    dsimp only
    rw [readAll]

theorem reads_of_expectAll {lexer after : Lexer} {kinds : List Token.Kind}
    {lexemes : List Lexeme} (read : lexer.expectAll kinds = (.ok lexemes, after))
    (visible : .empty ∉ kinds) :
    Reads lexer.rest (lexemes.map Lexeme.token) after.rest ∧ lexemes.map Lexeme.kind = kinds := by
  induction kinds generalizing lexer lexemes with
  | nil =>
    cases read
    exact ⟨.done _, rfl⟩
  | cons kind kinds inductionHypothesis =>
    rw [List.mem_cons, not_or] at visible
    unfold expectAll at read
    split at read
    · cases read
    rename_i lexeme middle readFirst
    split at read
    · cases read
    rename_i lexemes _ readOthers
    cases read
    obtain ⟨first, rfl⟩ := read?_of_expect readFirst
    obtain ⟨others, rfl⟩ := inductionHypothesis readOthers visible.2
    refine ⟨.next first (fun empty => ?_) others, rfl⟩
    exact visible.1 ((kind_eq_empty_iff _).mpr empty).symm

/-- A group is the tokens up to the first one of a stopping kind. -/
theorem nextUntil_of_reads {lexer : Lexer} {stops : List Token.Kind} {body : List Token}
    {stop : Token} {rest : List Char} (reads : Reads lexer.rest (body ++ [stop]) rest)
    (inside : ∀ token ∈ body, token.kind ∉ stops) (stopping : stop.kind ∈ stops) :
    ∃ group after, nextUntil stops lexer = (.ok group, after) ∧
      group.body.map Lexeme.token = body ∧ group.stop.token = stop ∧ after.rest = rest := by
  induction body generalizing lexer with
  | nil =>
    obtain ⟨middle, first, -, others⟩ := reads.cons_inv
    cases others
    obtain ⟨lexeme, after, read, rfl, rfl⟩ := (next_ok_iff lexer _ _).mpr first
    refine ⟨⟨[], lexeme⟩, after, ?_, rfl, rfl, rfl⟩
    rw [nextUntil_eq, read]
    exact if_pos (.inr stopping)
  | cons token body inductionHypothesis =>
    obtain ⟨middle, first, visible, others⟩ := reads.cons_inv
    obtain ⟨lexeme, middle, read, rfl, rfl⟩ := (next_ok_iff lexer _ _).mpr first
    obtain ⟨group, after, readOthers, rfl, stopped, left⟩ :=
      inductionHypothesis others fun other member => inside other (List.mem_cons_of_mem _ member)
    refine ⟨⟨lexeme :: group.body, group.stop⟩, after, ?_, rfl, stopped, left⟩
    have goesOn : ¬ (lexeme.kind = .empty ∨ lexeme.kind ∈ stops) := by
      rintro (empty | stopped)
      · exact visible ((kind_eq_empty_iff _).mp empty)
      · exact inside _ List.mem_cons_self stopped
    rw [nextUntil_eq, read]
    dsimp only
    rw [if_neg goesOn, readOthers]

theorem reads_of_nextUntil {lexer after : Lexer} {stops : List Token.Kind} {group : Group}
    (read : nextUntil stops lexer = (.ok group, after)) (visible : group.stop.kind ≠ .empty) :
    Reads lexer.rest (group.body.map Lexeme.token ++ [group.stop.token]) after.rest ∧
      (∀ token ∈ group.body.map Lexeme.token, token.kind ∉ stops) ∧
      group.stop.kind ∈ stops := by
  fun_induction nextUntil stops lexer generalizing group with
  | case1 => cases read
  | case2 lexer lexeme middle found ended =>
    cases read
    refine ⟨.single (read?_of_next found) fun empty => ?_, ?_, ended.resolve_left visible⟩
    · exact visible ((kind_eq_empty_iff _).mpr empty)
    · exact fun _ member => absurd member List.not_mem_nil
  | case3 => cases read
  | case4 lexer lexeme middle found ended _ tail _ readTail inductionHypothesis =>
    cases read
    obtain ⟨others, inside, stopping⟩ := inductionHypothesis readTail visible
    refine ⟨.next (read?_of_next found) (fun empty => ?_) others, ?_, stopping⟩
    · exact ended (.inl ((kind_eq_empty_iff _).mpr empty))
    · intro token member
      rcases List.mem_cons.mp member with rfl | later
      · exact fun stopped => ended (.inr stopped)
      · exact inside token later

end Lexer

end YaraReport
