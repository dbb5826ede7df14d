/-
This file proves that tokens are neither dropped nor read twice by the calls that read
them in shapes, also where a call fails. A lexer that is asked for nothing but tokens
yields a stream of answers, which goes on for ever with the end of the line. Whatever
calls are made on a lexer, the answers they consume are the ones this stream begins
with: each call consumes those that stand next, up to the one that settles it, and the
rest of the line is what stands behind the last of them (`Lexer.calls_follow_stream`).
No call is settled by less than it consumes, so what it consumes is determined.

What a call comes to is said through what it consumes (`Lexer.Yields`), so the two can
not drift apart.
-/

import YaraReport.Proofs.Token.Tiling

namespace YaraReport.Lexer

/-! ### The stream of tokens -/

/-- What a lexer answers when it is asked for a token. -/
abbrev Answer := Except LexError Lexeme

/-- The first answers of a lexer that is asked for nothing but tokens. -/
def stream (lexer : Lexer) (count : Nat) : List Answer :=
  lexer.answers (List.replicate count .token)

/-- A lexer after that many answers. -/
def past (lexer : Lexer) (count : Nat) : Lexer :=
  lexer.afterAll (List.replicate count .token)

/-- A lexer gives the next answers of its stream, and stands behind them then. -/
structure Gives (lexer : Lexer) (consumed : List Answer) (after : Lexer) : Prop where
  stream : consumed = lexer.stream consumed.length
  past : after = lexer.past consumed.length

variable {text : String} {line : Nat} {lexer middle after : Lexer}

theorem stream_succ (lexer : Lexer) (count : Nat) :
    lexer.stream (count + 1) = lexer.next.1 :: lexer.next.2.stream count := rfl

theorem stream_prefix (lexer : Lexer) {count more : Nat} (fewer : count ≤ more) :
    lexer.stream count <+: lexer.stream more := by
  induction count generalizing lexer more with
  | zero => exact List.nil_prefix
  | succ count inductionHypothesis =>
    obtain ⟨more, rfl⟩ := Nat.exists_eq_add_of_le' fewer
    rw [← Nat.add_assoc, stream_succ, stream_succ, List.prefix_cons_inj]
    exact inductionHypothesis lexer.next.2 (Nat.le_add_left count more)

namespace Gives

theorem nil (lexer : Lexer) : lexer.Gives [] lexer := ⟨rfl, rfl⟩

theorem cons {consumed : List Answer} (more : lexer.next.2.Gives consumed after) :
    lexer.Gives (lexer.next.1 :: consumed) after := by
  refine ⟨?_, more.past⟩
  rw [List.length_cons, stream_succ, ← more.stream]

/-- The answers are given one after the other. -/
theorem cons_inv {answer : Answer} {consumed : List Answer}
    (gives : lexer.Gives (answer :: consumed) after) :
    answer = lexer.next.1 ∧ lexer.next.2.Gives consumed after := by
  obtain ⟨first, others⟩ := List.cons.inj gives.stream
  exact ⟨first, others, gives.past⟩

theorem append {former latter : List Answer} (gives : lexer.Gives former middle)
    (more : middle.Gives latter after) : lexer.Gives (former ++ latter) after := by
  induction former generalizing lexer with
  | nil =>
    obtain rfl : middle = lexer := gives.past
    exact more
  | cons answer former inductionHypothesis =>
    obtain ⟨rfl, others⟩ := gives.cons_inv
    exact cons (inductionHypothesis others)

theorem prefix_of_length_le {former latter : List Answer} {other : Lexer}
    (gives : lexer.Gives former after) (more : lexer.Gives latter other)
    (fewer : former.length ≤ latter.length) : former <+: latter := by
  rw [gives.stream, more.stream]
  exact lexer.stream_prefix fewer

end Gives

/-! ### Calls -/

/-- The calls that read a line in shapes. -/
inductive Call where
  /-- One token of a known kind. -/
  | next (kind : Token.Kind)
  /-- Tokens of known kinds in order. -/
  | sequence (kinds : List Token.Kind)
  /-- Tokens up to the first of a stopping kind. -/
  | group (stops : List Token.Kind)
  deriving DecidableEq, Repr

/-- What a call comes to, and the lexer after it. -/
def call (lexer : Lexer) : Call → Except Violation (List Lexeme) × Lexer
  | .next kind => ((lexer.expect kind).1.map fun lexeme => [lexeme], (lexer.expect kind).2)
  | .sequence kinds => lexer.expectAll kinds
  | .group stops =>
    (((lexer.nextUntil stops).1.map Group.toList).mapError .lex, (lexer.nextUntil stops).2)

/-- The lexer after calls, of which any may fail. -/
def afterCalls (lexer : Lexer) (calls : List Call) : Lexer :=
  calls.foldl (fun lexer call => (lexer.call call).2) lexer

/-- What an answer comes to where a token of a known kind is due. -/
def checked (kind : Token.Kind) : Answer → Except Violation Lexeme
  | .error error => .error (.lex error)
  | .ok lexeme =>
    if lexeme.kind = kind then .ok lexeme
    else if lexeme.kind = .empty then .error (.unexpectedEnd (.token kind) lexeme.span)
    else .error (.unexpectedToken (.token kind) lexeme.token lexeme.span)

/-- What a call comes to that consumes certain answers. -/
inductive Yields : Call → List Answer → Except Violation (List Lexeme) → Prop where
  /-- One answer is consumed, whether it is as it is due or not. -/
  | next (kind : Token.Kind) (answer : Answer) :
      Yields (.next kind) [answer] ((checked kind answer).map fun lexeme => [lexeme])
  /-- As many tokens are consumed as are due. -/
  | sequence {kinds : List Token.Kind} (lexemes : List Lexeme)
      (due : lexemes.map Lexeme.kind = kinds) :
      Yields (.sequence kinds) (lexemes.map .ok) (.ok lexemes)
  /-- Tokens are consumed as long as they are due, and then the first answer that is not. -/
  | mismatch {kinds others : List Token.Kind} {kind : Token.Kind} {answer : Answer}
      {violation : Violation} (lexemes : List Lexeme)
      (due : lexemes.map Lexeme.kind ++ kind :: others = kinds)
      (differs : checked kind answer = .error violation) :
      Yields (.sequence kinds) (lexemes.map .ok ++ [answer]) (.error violation)
  /-- Tokens are consumed up to the first that stops the group, which is put into it. -/
  | group {stops : List Token.Kind} (body : List Lexeme) (stop : Lexeme)
      (inside : ∀ lexeme ∈ body, ¬ (lexeme.kind = .empty ∨ lexeme.kind ∈ stops))
      (stopping : stop.kind = .empty ∨ stop.kind ∈ stops) :
      Yields (.group stops) ((body ++ [stop]).map .ok) (.ok (body ++ [stop]))
  /-- A string that is never closed comes before any token that would stop the group. -/
  | unterminated {stops : List Token.Kind} (body : List Lexeme) (error : LexError)
      (inside : ∀ lexeme ∈ body, ¬ (lexeme.kind = .empty ∨ lexeme.kind ∈ stops)) :
      Yields (.group stops) (body.map .ok ++ [.error error]) (.error (.lex error))

/-- A call consumes the next answers of a lexer's stream and comes to what they say. -/
structure Consumes (lexer : Lexer) (call : Call) (consumed : List Answer) : Prop where
  gives : lexer.Gives consumed (lexer.call call).2
  yields : Yields call consumed (lexer.call call).1

/-- Calls, and what each of them consumes. -/
inductive Consumed : Lexer → List Call → List (List Answer) → Prop where
  | nil (lexer : Lexer) : Consumed lexer [] []
  | cons {lexer : Lexer} {call : Call} {calls : List Call} {consumed : List Answer}
      {parts : List (List Answer)} (first : lexer.Consumes call consumed)
      (others : Consumed (lexer.call call).2 calls parts) :
      Consumed lexer (call :: calls) (consumed :: parts)

/-! ### One call -/

theorem expect_eq (lexer : Lexer) (kind : Token.Kind) :
    lexer.expect kind = (checked kind lexer.next.1, lexer.next.2) := by
  unfold expect
  obtain ⟨error | lexeme, after⟩ := lexer.next
  · rfl
  · dsimp only [checked]
    split
    · rfl
    · split <;> rfl

theorem checked_eq_ok_iff {kind : Token.Kind} {answer : Answer} {lexeme : Lexeme} :
    checked kind answer = .ok lexeme ↔ answer = .ok lexeme ∧ lexeme.kind = kind := by
  cases answer with
  | error error => exact iff_of_false nofun nofun
  | ok other =>
    rw [checked, Except.ok.injEq]
    constructor
    · intro same
      split at same
      · rename_i due
        cases same
        exact ⟨rfl, due⟩
      · split at same <;> cases same
    · rintro ⟨rfl, due⟩
      exact if_pos due

theorem consumes_next (lexer : Lexer) (kind : Token.Kind) :
    lexer.Consumes (.next kind) [lexer.next.1] := by
  refine ⟨?_, ?_⟩
  · rw [call, expect_eq]
    exact .cons (.nil _)
  · rw [call, expect_eq]
    exact .next kind lexer.next.1

theorem consumes_sequence (lexer : Lexer) (kinds : List Token.Kind) :
    ∃ consumed, lexer.Consumes (.sequence kinds) consumed := by
  induction kinds generalizing lexer with
  | nil => exact ⟨[], .nil lexer, .sequence [] rfl⟩
  | cons kind kinds inductionHypothesis =>
    obtain ⟨consumed, gives, yields⟩ := inductionHypothesis lexer.next.2
    cases first : checked kind lexer.next.1 with
    | error violation =>
      have fails : lexer.call (.sequence (kind :: kinds)) = (.error violation, lexer.next.2) := by
        rw [call, expectAll, expect_eq, first]
      refine ⟨[lexer.next.1], ?_, ?_⟩
      · rw [fails]
        exact .cons (.nil _)
      · rw [fails]
        exact .mismatch [] rfl first
    | ok lexeme =>
      obtain ⟨answer, rfl⟩ := checked_eq_ok_iff.mp first
      have goesOn : lexer.call (.sequence (lexeme.kind :: kinds)) =
          ((lexer.next.2.call (.sequence kinds)).1.map (lexeme :: ·),
            (lexer.next.2.call (.sequence kinds)).2) := by
        rw [call, expectAll, expect_eq, first]
        dsimp only [call]
        obtain ⟨violation | lexemes, after⟩ := lexer.next.2.expectAll kinds <;> rfl
      refine ⟨lexer.next.1 :: consumed, ?_, ?_⟩
      · rw [goesOn]
        exact gives.cons
      · rw [goesOn, answer]
        generalize (lexer.next.2.call (.sequence kinds)).1 = outcome at yields
        cases yields with
        | sequence lexemes due =>
          exact .sequence (lexeme :: lexemes) (congrArg (lexeme.kind :: ·) due)
        | mismatch lexemes due differs =>
          exact .mismatch (lexeme :: lexemes) (congrArg (lexeme.kind :: ·) due) differs

theorem gives_of_next {answer : Answer} {consumed : List Answer}
    (found : lexer.next = (answer, middle)) (gives : middle.Gives consumed after) :
    lexer.Gives (answer :: consumed) after := by
  have more : lexer.next.2.Gives consumed after := by
    rw [found]
    exact gives
  have whole := more.cons
  rw [found] at whole
  exact whole

theorem consumes_group (lexer : Lexer) (stops : List Token.Kind) :
    ∃ consumed, lexer.Consumes (.group stops) consumed := by
  suffices reads : ∃ consumed, lexer.Gives consumed (lexer.nextUntil stops).2 ∧
      Yields (.group stops) consumed
        (((lexer.nextUntil stops).1.map Group.toList).mapError .lex) from
    reads.imp fun _ facts => ⟨facts.1, facts.2⟩
  fun_induction nextUntil stops lexer with
  | case1 lexer error after found =>
    exact ⟨[.error error], gives_of_next found (.nil _),
      .unterminated [] error fun _ member => absurd member List.not_mem_nil⟩
  | case2 lexer lexeme after found ended =>
    exact ⟨[.ok lexeme], gives_of_next found (.nil _),
      .group [] lexeme (fun _ member => absurd member List.not_mem_nil) ended⟩
  | case3 lexer lexeme middle found ended _ error after readTail inductionHypothesis =>
    obtain ⟨consumed, gives, yields⟩ := inductionHypothesis
    rw [readTail] at gives yields
    refine ⟨.ok lexeme :: consumed, gives_of_next found gives, ?_⟩
    cases yields with
    | unterminated body _ inside =>
      exact .unterminated (lexeme :: body) error (List.forall_mem_cons.mpr ⟨ended, inside⟩)
  | case4 lexer lexeme middle found ended _ tail after readTail inductionHypothesis =>
    obtain ⟨consumed, gives, yields⟩ := inductionHypothesis
    rw [readTail] at gives yields
    refine ⟨.ok lexeme :: consumed, gives_of_next found gives, ?_⟩
    obtain ⟨body, stop⟩ := tail
    generalize same : ((Except.ok (Group.mk body stop)).map Group.toList).mapError _ = outcome
      at yields
    cases yields with
    | unterminated => cases same
    | group others last inside stopping =>
      have whole : body ++ [stop] = others ++ [last] := Except.ok.inj same
      show Yields _ _ (.ok (lexeme :: (body ++ [stop])))
      rw [whole]
      exact .group (lexeme :: others) last (List.forall_mem_cons.mpr ⟨ended, inside⟩) stopping

theorem exists_consumes (lexer : Lexer) (call : Call) :
    ∃ consumed, lexer.Consumes call consumed := by
  cases call with
  | next kind => exact ⟨_, lexer.consumes_next kind⟩
  | sequence kinds => exact lexer.consumes_sequence kinds
  | group stops => exact lexer.consumes_group stops

/-! ### What a call consumes is determined -/

/-- A call that has consumed certain tokens asks for another. -/
def AsksOn : Call → List Lexeme → Prop
  | .next _, read => read = []
  | .sequence kinds, read => ∃ kind others, kinds = read.map Lexeme.kind ++ kind :: others
  | .group stops, read => ∀ lexeme ∈ read, ¬ (lexeme.kind = .empty ∨ lexeme.kind ∈ stops)

theorem AsksOn.front {call : Call} {front tail : List Lexeme}
    (asks : AsksOn call (front ++ tail)) : AsksOn call front := by
  cases call with
  | next kind => exact (List.append_eq_nil_iff.mp asks).1
  | sequence kinds =>
    obtain ⟨kind, others, rfl⟩ := asks
    rw [List.map_append, List.append_assoc]
    cases tail with
    | nil => exact ⟨kind, others, rfl⟩
    | cons lexeme tail => exact ⟨lexeme.kind, tail.map Lexeme.kind ++ kind :: others, rfl⟩
  | group stops => exact fun lexeme member => asks lexeme (List.mem_append_left tail member)

theorem map_ok_injective : Function.Injective (List.map (Except.ok : Lexeme → Answer)) :=
  List.map_injective_iff.mpr fun _ _ => Except.ok.inj

namespace Yields

variable {call : Call} {consumed : List Answer} {outcome : Except Violation (List Lexeme)}

/-- Before the last answer that it consumes, a call asks on. -/
theorem exists_asksOn (yields : Yields call consumed outcome) (nonempty : consumed ≠ []) :
    ∃ read last, consumed = read.map .ok ++ [last] ∧ AsksOn call read := by
  cases yields with
  | next kind answer => exact ⟨[], answer, rfl, rfl⟩
  | sequence lexemes due =>
    obtain rfl | ⟨read, last, rfl⟩ := lexemes.eq_nil_or_concat
    · exact absurd rfl nonempty
    · refine ⟨read, .ok last, ?_, last.kind, [], ?_⟩
      · rw [List.concat_eq_append, List.map_append]
        rfl
      · rw [← due, List.concat_eq_append, List.map_append]
        rfl
  | mismatch lexemes due differs => exact ⟨lexemes, _, rfl, _, _, due.symm⟩
  | group body stop inside stopping => exact ⟨body, .ok stop, List.map_append, inside⟩
  | unterminated body error inside => exact ⟨body, _, rfl, inside⟩

/-- Behind what it consumes, a call does not ask on. -/
theorem not_asksOn {read : List Lexeme} (yields : Yields call consumed outcome)
    (tokens : consumed = read.map .ok) : ¬ AsksOn call read := by
  intro asks
  cases yields with
  | next kind answer =>
    obtain rfl : read = [] := asks
    cases tokens
  | sequence lexemes due =>
    obtain ⟨kind, others, more⟩ := asks
    have lengths := congrArg List.length (due.trans more)
    have same := congrArg List.length tokens
    simp only [List.length_map, List.length_append, List.length_cons] at lengths same
    omega
  | mismatch lexemes due differs =>
    obtain ⟨kind, others, more⟩ := asks
    obtain ⟨front, last, rfl, fronts, lasts⟩ := List.map_eq_append_iff.mp tokens.symm
    obtain rfl := map_ok_injective fronts
    obtain ⟨lexeme, nothing, rfl, rfl, behind⟩ := List.map_eq_cons_iff.mp lasts
    obtain rfl := List.map_eq_nil_iff.mp behind
    rw [← due, List.map_append, List.append_assoc] at more
    obtain ⟨same, -⟩ := List.cons.inj (List.append_cancel_left more)
    rw [checked_eq_ok_iff.mpr ⟨rfl, same.symm⟩] at differs
    cases differs
  | group body stop inside stopping =>
    obtain rfl := map_ok_injective tokens
    exact asks stop (List.mem_append_right body (List.mem_singleton_self stop)) stopping
  | unterminated body error inside =>
    obtain ⟨_, last, -, -, lasts⟩ := List.map_eq_append_iff.mp tokens.symm
    obtain ⟨lexeme, _, -, wrong, -⟩ := List.map_eq_cons_iff.mp lasts
    cases wrong

/-- No call is settled by less than what it consumes. -/
theorem eq_of_prefix {former latter : List Answer}
    {other : Except Violation (List Lexeme)} (yields : Yields call former outcome)
    (others : Yields call latter other) (first : former <+: latter) : former = latter := by
  obtain ⟨tail, rfl⟩ := first
  obtain rfl | ⟨inner, final, rfl⟩ := tail.eq_nil_or_concat
  · exact (List.append_nil former).symm
  · rw [List.concat_eq_append, ← List.append_assoc] at others
    obtain ⟨read, last, whole, asks⟩ := others.exists_asksOn (by simp)
    obtain ⟨same, -⟩ := List.append_inj' whole rfl
    obtain ⟨front, back, rfl, fronts, -⟩ := List.map_eq_append_iff.mp same.symm
    exact absurd asks.front (yields.not_asksOn fronts.symm)

end Yields

theorem Consumes.unique {call : Call} {former latter : List Answer}
    (consumes : lexer.Consumes call former) (others : lexer.Consumes call latter) :
    former = latter := by
  obtain fewer | fewer := Nat.le_total former.length latter.length
  · exact consumes.yields.eq_of_prefix others.yields
      (consumes.gives.prefix_of_length_le others.gives fewer)
  · exact (others.yields.eq_of_prefix consumes.yields
      (others.gives.prefix_of_length_le consumes.gives fewer)).symm

/-! ### All calls -/

theorem exists_consumed (lexer : Lexer) (calls : List Call) :
    ∃ parts, lexer.Consumed calls parts := by
  induction calls generalizing lexer with
  | nil => exact ⟨[], .nil lexer⟩
  | cons call calls inductionHypothesis =>
    obtain ⟨consumed, first⟩ := lexer.exists_consumes call
    obtain ⟨parts, others⟩ := inductionHypothesis (lexer.call call).2
    exact ⟨consumed :: parts, .cons first others⟩

theorem Consumed.unique {calls : List Call} {former latter : List (List Answer)}
    (consumed : lexer.Consumed calls former) (others : lexer.Consumed calls latter) :
    former = latter := by
  induction consumed generalizing latter with
  | nil lexer =>
    cases others
    rfl
  | cons first _ inductionHypothesis =>
    cases others with
    | cons same others => rw [first.unique same, inductionHypothesis others]

/-- What calls consume, one after the other, is what the stream begins with. -/
theorem Consumed.gives {calls : List Call} {parts : List (List Answer)}
    (consumed : lexer.Consumed calls parts) :
    lexer.Gives parts.flatten (lexer.afterCalls calls) := by
  induction consumed with
  | nil lexer => exact .nil lexer
  | cons first _ inductionHypothesis => exact first.gives.append inductionHypothesis

/-! ### The rest of the line -/

/-- The byte offset behind the last of some answers. -/
def endOffset (consumed : List Answer) : Nat :=
  (consumed.getLast?.map fun answer => (placeOf answer).stop).getD 0

/-- A lexer in a line stands behind the last answer that it has given. -/
theorem In.gives (stands : lexer.In line text.toList) {consumed : List Answer}
    (gives : lexer.Gives consumed after) :
    after.In line text.toList ∧
      after.offset =
        (consumed.getLast?.map fun answer => (placeOf answer).stop).getD lexer.offset := by
  induction consumed generalizing lexer with
  | nil =>
    obtain rfl : after = lexer := gives.past
    exact ⟨stands, rfl⟩
  | cons answer consumed inductionHypothesis =>
    obtain ⟨rfl, others⟩ := gives.cons_inv
    obtain ⟨afterStands, offset⟩ := inductionHypothesis (stands.answer .token) others
    refine ⟨afterStands, offset.trans ?_⟩
    cases last : consumed.getLast? with
    | none =>
      obtain rfl := List.getLast?_eq_none_iff.mp last
      exact (stands.tiles .token).place.2.2
    | some answer =>
      rw [List.getLast?_cons, last]
      rfl

/-- A token is the rest of a text, without a space that the text begins with. -/
def IsRest (text : String) (token : Token) : Prop :=
  ∃ gap rest, text = gap ++ rest ∧ token = .string rest ∧
    (gap = " " ∨ gap = "" ∧ text.toList.head? ≠ some ' ')

theorem isRest_takeRest (lexer : Lexer) :
    IsRest (String.ofList lexer.rest) lexer.takeRest.1.token := by
  unfold takeRest
  split
  · rename_i rest front
    refine ⟨" ", String.ofList rest, ?_, rfl, .inl rfl⟩
    rw [front]
    exact @String.ofList_append [' '] rest
  · rename_i other
    refine ⟨"", String.ofList lexer.rest, (String.empty_append).symm, rfl, .inr ⟨rfl, ?_⟩⟩
    rw [String.toList_ofList]
    intro space
    obtain ⟨rest, front⟩ := List.head?_eq_some_iff.mp space
    exact other rest front

/-! ### Whole lines -/

/-- From an answer on there is only the end of the line, which the lexer yields for ever. -/
structure EndsAfter (text : String) (line : Nat) (count : Nat) : Prop where
  nothing : ((ofLine text line).past (count + 1)).rest = []
  empty (more : Nat) :
    (((ofLine text line).past (count + 1)).past more).next.1 = .ok ⟨.empty, endOf text line⟩

theorem past_concat (lexer : Lexer) (count : Nat) :
    lexer.past (count + 1) = (lexer.past count).next.2 := by
  induction count generalizing lexer with
  | zero => rfl
  | succ count inductionHypothesis => exact inductionHypothesis lexer.next.2

theorem endsAfter_of_exhausts {count : Nat}
    (exhausts : Exhausts .token ((ofLine text line).past count).next.1) :
    EndsAfter text line count := by
  have stands : ((ofLine text line).past count).In line text.toList :=
    (ofLine_in line text).afterAll _
  constructor
  · rw [past_concat]
    exact rest_nil_of_exhausts exhausts
  · intro more
    rw [past_concat]
    exact stands.accounts.ends .token exhausts (List.replicate more .token)

/-- Calls on a line follow the stream of its tokens. -/
structure Follows (text : String) (line : Nat) (calls : List Call) (parts : List (List Answer)) :
    Prop where
  consumed : (ofLine text line).Consumed calls parts
  /-- What is consumed so far is what the stream begins with. -/
  gives : (ofLine text line).Gives parts.flatten ((ofLine text line).afterCalls calls)
  /-- What is left is what stands behind the last token that is consumed. -/
  rest : IsRest (Text.between text (endOffset parts.flatten) text.utf8ByteSize)
    ((ofLine text line).afterCalls calls).takeRest.1.token

/-- Whatever calls are made on a line, and whichever of them fail, they consume the tokens of the
line one after the other, each call those that settle it and no others, and leave what stands behind
them. The stream of tokens goes on for ever with the end of the line, also after a string that is
never closed. -/
theorem calls_follow_stream (text : String) (line : Nat) (calls : List Call) :
    (∃! parts, Follows text line calls parts) ∧
      ∀ count, Exhausts .token ((ofLine text line).past count).next.1 →
        EndsAfter text line count := by
  obtain ⟨parts, consumed⟩ := (ofLine text line).exists_consumed calls
  refine ⟨⟨parts, ⟨consumed, consumed.gives, ?_⟩, fun _ others => others.consumed.unique consumed⟩,
    fun count => endsAfter_of_exhausts⟩
  -- What is left is what stands behind the last answer that the stream has given.
  obtain ⟨stands, offset⟩ := (ofLine_in line text).gives consumed.gives
  have left := stands.holds.remaining
  rw [offset] at left
  rw [endOffset, ← show (ofLine text line).offset = 0 from rfl, ← left]
  exact isRest_takeRest _

/-- A token that is not the one that is due is consumed all the same. -/
example : ((ofLine "a: \"b" 7).afterCalls [.next .number, .sequence [.colon]]).takeRest.1.token =
    .string "\"b" := rfl

end YaraReport.Lexer
