/-
This file reads tokens in the shapes that lines are made of: one token of a
known kind, a fixed sequence of kinds, and a group of tokens up to a separator.
Nothing looks ahead or goes back: each of these takes off the line exactly the
tokens it has looked at, also where it fails.

The main statement is `Lexer.nextUntil_shortens`: a group that ends at a
separator takes at least one character off the line.
-/

import YaraReport.Token.Lexer

namespace YaraReport

structure Group where
  body : List Lexeme
  stop : Lexeme
  deriving DecidableEq, Repr

def Group.toList (group : Group) : List Lexeme := group.body ++ [group.stop]

namespace Lexer

def expect (lexer : Lexer) (kind : Token.Kind) : Except Violation Lexeme × Lexer :=
  match lexer.next with
  | (.error error, after) => (.error (.lex error), after)
  | (.ok lexeme, after) =>
    if lexeme.kind = kind then (.ok lexeme, after)
    else if lexeme.kind = .empty then
      (.error (.unexpectedEnd (.token kind) lexeme.span), after)
    else (.error (.unexpectedToken (.token kind) lexeme.token lexeme.span), after)

/-- Reads tokens of the given kinds in order, up to the first that differs. -/
def expectAll (lexer : Lexer) : List Token.Kind → Except Violation (List Lexeme) × Lexer
  | [] => (.ok [], lexer)
  | kind :: kinds =>
    match lexer.expect kind with
    | (.error violation, after) => (.error violation, after)
    | (.ok lexeme, after) =>
      match after.expectAll kinds with
      | (.error violation, final) => (.error violation, final)
      | (.ok lexemes, final) => (.ok (lexeme :: lexemes), final)

/-- Reads tokens up to the first of a stopping kind. The end of the line stops every group. -/
def nextUntil (stops : List Token.Kind) (lexer : Lexer) : Except LexError Group × Lexer :=
  match found : lexer.next with
  | (.error error, after) => (.error error, after)
  | (.ok lexeme, after) =>
    if ended : lexeme.kind = .empty ∨ lexeme.kind ∈ stops then (.ok ⟨[], lexeme⟩, after)
    else
      have := next_shortens lexer lexeme after found fun empty => ended (.inl empty)
      match nextUntil stops after with
      | (.error error, final) => (.error error, final)
      | (.ok group, final) => (.ok ⟨lexeme :: group.body, group.stop⟩, final)
termination_by lexer.rest.length

/-- A group is one token that stops it, or a token before the group that follows. -/
theorem nextUntil_eq (stops : List Token.Kind) (lexer : Lexer) :
    nextUntil stops lexer =
      match lexer.next with
      | (.error error, after) => (.error error, after)
      | (.ok lexeme, after) =>
        if lexeme.kind = .empty ∨ lexeme.kind ∈ stops then (.ok ⟨[], lexeme⟩, after)
        else
          match nextUntil stops after with
          | (.error error, final) => (.error error, final)
          | (.ok group, final) => (.ok ⟨lexeme :: group.body, group.stop⟩, final) := by
  rw [nextUntil]
  split <;> simp_all

/-- A group that does not end with the line takes at least one character off it. -/
theorem nextUntil_shortens (stops : List Token.Kind) (lexer : Lexer) (group : Group)
    (after : Lexer) (read : nextUntil stops lexer = (.ok group, after))
    (visible : group.stop.kind ≠ .empty) : after.rest.length < lexer.rest.length := by
  fun_induction nextUntil stops lexer generalizing group with
  | case1 => simp at read
  | case2 lexer lexeme first found _ =>
    simp only [Prod.mk.injEq, Except.ok.injEq] at read
    obtain ⟨rfl, rfl⟩ := read
    exact next_shortens lexer lexeme _ found visible
  | case3 => simp at read
  | case4 lexer lexeme first found ended shorter tail final more inductionHypothesis =>
    simp only [Prod.mk.injEq, Except.ok.injEq] at read
    obtain ⟨rfl, rfl⟩ := read
    exact Nat.lt_trans (inductionHypothesis tail more visible) shorter

end Lexer

end YaraReport
