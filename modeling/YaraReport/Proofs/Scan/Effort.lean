/-
This file proves that reading a line ends, and bounds what is read for it. The loops that
read strings, groups, lists and whole lines are looked at pass by pass: each pass leaves
its loop or leaves strictly less of the line, and at the end of a line, where the lexer
yields the empty token again and again, a group ends and so does the list that asked for
it. So no line is read with more tokens, or in more groups, than it has characters and one
(`Lexer.reading_ends`).

The bound is a budget of one for each character that is left and one more. A token that is
there pays for itself with a character. The one that goes beyond, at the end of the line
or for a string that is never closed, is the last: nothing reads on after it.
-/

import Mathlib.Algebra.Order.BigOperators.Group.List
import YaraReport.Proofs.Scan.Indexing
import YaraReport.Proofs.Token.Stream

namespace YaraReport

/-! ### Passes -/

namespace Pointer

/-- Reads one token of a whole line. -/
def tokenPass? :
    List Lexeme × Pointer → Option (Round (List Lexeme × Pointer) (Except LexError (List Lexeme)))
  | (read, pointer) =>
    pointer.next?.map fun
      | (.error error, _) => .done (.error error)
      | (.ok lexeme, after) =>
        if lexeme.kind = .empty then .done (.ok read) else .again (read ++ [lexeme], after)

/-- Reads one token of a group. -/
def groupPass? (stops : List Token.Kind) :
    List Lexeme × Pointer →
      Option (Round (List Lexeme × Pointer) (Except LexError (List Lexeme) × Pointer))
  | (read, pointer) =>
    pointer.next?.map fun
      | (.error error, after) => .done (.error error, after)
      | (.ok lexeme, after) =>
        if lexeme.kind = .empty ∨ lexeme.kind ∈ stops then .done (.ok (read ++ [lexeme]), after)
        else .again (read ++ [lexeme], after)

/-- Reads one character of a string whose content starts at an offset. -/
def closingPass? (start : Nat) :
    Bool × Pointer → Option (Round (Bool × Pointer) (Option String × Pointer))
  | (escaped, pointer) =>
    pointer.peek?.bind fun
      | none => some (.done (none, pointer))
      | some character => closingRound? start escaped pointer character

theorem group?_eq (stops : List Token.Kind) :
    group? stops = rounds? (fun state => state.2.left) (groupPass? stops) := rfl

theorem closing?_eq (start : Nat) :
    closing? start = rounds? (fun state => state.2.left) (closingPass? start) := rfl

end Pointer

namespace Header

variable {Item : Type}

/-- What separates the entries of a list, or closes it. -/
def separators : List Token.Kind := [.comma, .rightBracket]

/-- Reads one group of a list. -/
def listPass? (glean? : List Lexeme → Lexeme → Option (Gleaned Item)) :
    Gathered Item × Pointer →
      Option (Round (Gathered Item × Pointer)
        (List Note × Except Violation (List Item × Pointer)))
  | (gathered, pointer) =>
    (Pointer.group? separators ([], pointer)).bind fun
      | (.error error, _) => some (.done (gathered.notes, .error (.lex error)))
      | (.ok group, after) => listRound? glean? gathered after group

theorem list?_eq (glean? : List Lexeme → Lexeme → Option (Gleaned Item)) :
    list? glean? = rounds? (fun state => state.2.left) (listPass? glean?) := rfl

end Header

/-! ### Tokens and characters -/

namespace Pointer

/-- The number of tokens that are read for a group: one in each pass. -/
def groupTokens (stops : List Token.Kind) (pointer : Pointer) : Nat :=
  (passes (fun state => state.2.left) (groupPass? stops) ([], pointer)).length

theorem groupTokens_pos (stops : List Token.Kind) (pointer : Pointer) :
    0 < pointer.groupTokens stops := by
  rw [groupTokens, passes]
  exact Nat.succ_pos _

/-- A place in a line after which there are fewer characters than a budget. -/
def Allows (text : String) (line : Nat) (pointer : Pointer) (budget : Nat) : Prop :=
  ∃ lexer : Lexer, lexer.In line text.toList ∧ pointer = .of text lexer ∧
    lexer.rest.length < budget

theorem start_allows (text : String) (line : Nat) :
    (Pointer.start line text).Allows text line (text.length + 1) :=
  ⟨.ofLine text line, Lexer.ofLine_in line text, rfl, Nat.lt_succ_of_le (Nat.le_of_eq rfl)⟩

end Pointer

namespace Lexer

open Pointer

variable {text : String} {line : Nat} {lexer after : Lexer}

/-- A token that is there is paid for with a character. -/
theorem In.allows_of_next (stands : lexer.In line text.toList) {lexeme : Lexeme}
    (found : lexer.next = (.ok lexeme, after)) (visible : lexeme.kind ≠ .empty) {budget : Nat}
    (allowed : lexer.rest.length < budget) :
    (Pointer.of text after).Allows text line (budget - 1) := by
  have shorter := next_shortens lexer lexeme after found visible
  exact ⟨after, (stands.next.1 lexeme after found).2, rfl, by omega⟩

theorem In.tokenPass?_eq (stands : lexer.In line text.toList) (read : List Lexeme) :
    tokenPass? (read, Pointer.of text lexer) =
      some (match lexer.next with
        | (.error error, _) => .done (.error error)
        | (.ok lexeme, after) =>
          if lexeme.kind = .empty then .done (.ok read)
          else .again (read ++ [lexeme], Pointer.of text after)) := by
  rw [tokenPass?, stands.next?]
  obtain ⟨error | lexeme, after⟩ := lexer.next <;> rfl

theorem In.groupPass?_eq (stands : lexer.In line text.toList) (stops : List Token.Kind)
    (read : List Lexeme) :
    groupPass? stops (read, Pointer.of text lexer) =
      some (match lexer.next with
        | (.error error, after) => .done (.error error, Pointer.of text after)
        | (.ok lexeme, after) =>
          if lexeme.kind = .empty ∨ lexeme.kind ∈ stops then
            .done (.ok (read ++ [lexeme]), Pointer.of text after)
          else .again (read ++ [lexeme], Pointer.of text after)) := by
  rw [groupPass?, stands.next?]
  obtain ⟨error | lexeme, after⟩ := lexer.next <;> rfl

/-- A pass that is not the last has read a token. -/
theorem In.groupPass?_again (stands : lexer.In line text.toList) {stops : List Token.Kind}
    {read : List Lexeme} {next : List Lexeme × Pointer}
    (again : groupPass? stops (read, Pointer.of text lexer) = some (.again next)) :
    ∃ lexeme after, lexer.next = (.ok lexeme, after) ∧ lexeme.kind ≠ .empty ∧
      next.2 = Pointer.of text after := by
  rw [stands.groupPass?_eq, Option.some.injEq] at again
  split at again
  · cases again
  · rename_i lexeme after found
    split at again
    · cases again
    · rename_i goesOn
      cases again
      exact ⟨lexeme, after, found, fun empty => goesOn (.inl empty), rfl⟩

/-- The last pass for a group has read the token that stops it. -/
theorem In.groupPass?_done (stands : lexer.In line text.toList) {stops : List Token.Kind}
    {read group : List Lexeme} {final : Pointer}
    (done : groupPass? stops (read, Pointer.of text lexer) = some (.done (.ok group, final))) :
    ∃ lexeme after, lexer.next = (.ok lexeme, after) ∧ group = read ++ [lexeme] ∧
      final = Pointer.of text after := by
  rw [stands.groupPass?_eq, Option.some.injEq] at done
  split at done
  · cases done
  · rename_i lexeme after found
    split at done
    · cases done
      exact ⟨lexeme, after, found, rfl, rfl⟩
    · cases done

/-- A whole line is read like a group that nothing stops, as long as it goes on. -/
theorem groupPass?_of_tokenPass? {state next : List Lexeme × Pointer}
    (again : tokenPass? state = some (.again next)) :
    groupPass? [] state = some (.again next) := by
  obtain ⟨read, pointer⟩ := state
  rw [tokenPass?] at again
  obtain ⟨⟨error | lexeme, after⟩, found, round⟩ := Option.map_eq_some_iff.mp again
  · cases round
  · dsimp only at round
    split at round
    · cases round
    · rename_i visible
      obtain rfl := Round.again.inj round
      simp [groupPass?, found, visible]

/-- A token that is not the last is put to those that are read. -/
theorem In.tokens?_of_next (stands : lexer.In line text.toList) (read : List Lexeme)
    {lexeme : Lexeme} (found : lexer.next = (.ok lexeme, after)) (visible : lexeme.kind ≠ .empty) :
    rounds? (fun state => state.2.left) tokenPass? (read, Pointer.of text lexer) =
      rounds? (fun state => state.2.left) tokenPass? (read ++ [lexeme], Pointer.of text after) := by
  have later := (stands.next.1 lexeme after found).2
  refine rounds?_of_again ?_ (stands.closer later (next_shortens lexer lexeme after found visible))
  rw [stands.tokenPass?_eq, found]
  exact congrArg some (if_neg visible)

/-- A whole line is read token by token. -/
theorem In.tokens? (stands : lexer.In line text.toList) (read : List Lexeme) :
    rounds? (fun state => state.2.left) tokenPass? (read, Pointer.of text lexer) =
      some (lexer.tokens.map (read ++ ·)) := by
  fun_induction Lexer.tokens lexer generalizing read with
  | case1 lexer error after found =>
    refine rounds?_of_done ?_
    rw [stands.tokenPass?_eq, found]
    rfl
  | case2 lexer lexeme after found ended =>
    refine rounds?_of_done ?_
    rw [stands.tokenPass?_eq, found]
    dsimp only [Except.map]
    rw [if_pos ended, List.append_nil]
  | case3 lexer lexeme middle found visible _ others readOthers inductionHypothesis =>
    have later := (stands.next.1 lexeme middle found).2
    rw [stands.tokens?_of_next read found visible, inductionHypothesis later, readOthers]
    show some (Except.ok (read ++ [lexeme] ++ others)) = _
    rw [List.append_assoc]
    rfl
  | case4 lexer lexeme middle found visible _ error readOthers inductionHypothesis =>
    have later := (stands.next.1 lexeme middle found).2
    rw [stands.tokens?_of_next read found visible, inductionHypothesis later, readOthers]
    rfl

/-- No more tokens are read off what is left of a line than it has characters, and one. -/
theorem In.length_tokenPasses_le (stands : lexer.In line text.toList) (read : List Lexeme) :
    (passes (fun state => state.2.left) tokenPass? (read, Pointer.of text lexer)).length ≤
      lexer.rest.length + 1 := by
  have paid := sum_passes_le (fun _ => 1) (fun state budget => state.2.Allows text line budget)
    (fun _ _ => True) ?_ ?_ ⟨lexer, stands, rfl, Nat.lt_succ_self _⟩ (stands.tokens? read)
  · simpa using paid.1
  · rintro ⟨read, pointer⟩ next budget ⟨lexer, stands, rfl, allowed⟩ again
    obtain ⟨lexeme, after, found, visible, same⟩ :=
      stands.groupPass?_again (groupPass?_of_tokenPass? again)
    rw [same]
    exact ⟨by omega, stands.allows_of_next found visible allowed⟩
  · rintro ⟨read, pointer⟩ last budget ⟨lexer, stands, rfl, allowed⟩ _
    exact ⟨by omega, trivial⟩

/-- What a group that is read leaves of a budget, if the line did not end in it. -/
def GroupSpares (text : String) (line : Nat)
    (result : Except LexError (List Lexeme) × Pointer) (budget : Nat) : Prop :=
  ∀ body stop, result.1 = .ok (body ++ [stop]) → stop.kind ≠ .empty →
    result.2.Allows text line budget

theorem sum_groupPasses (stops : List Token.Kind) (pointer : Pointer) :
    ((passes (fun state => state.2.left) (groupPass? stops) ([], pointer)).map fun _ => 1).sum =
      pointer.groupTokens stops := by
  simp [groupTokens]

/-- The tokens of a group are paid for with its characters. Only one that ends the line, or that
can not be read, is paid for with what is left of a budget. -/
theorem In.groupTokens_le (stands : lexer.In line text.toList) (stops : List Token.Kind)
    {budget : Nat} (allowed : lexer.rest.length < budget) :
    (Pointer.of text lexer).groupTokens stops ≤ budget ∧
      ∀ group after, lexer.nextUntil stops = (.ok group, after) → group.stop.kind ≠ .empty →
        (Pointer.of text after).Allows text line
          (budget - (Pointer.of text lexer).groupTokens stops) := by
  have comes := (congrFun (group?_eq stops) _).symm.trans (stands.group? stops [])
  have paid := sum_passes_le (fun _ => 1) (fun state budget => state.2.Allows text line budget)
    (GroupSpares text line) ?_ ?_ ⟨lexer, stands, rfl, allowed⟩ comes
  · rw [sum_groupPasses] at paid
    refine ⟨paid.1, fun group after found visible => ?_⟩
    have spare := paid.2 group.body group.stop
    rw [found] at spare
    exact spare rfl visible
  · rintro ⟨read, pointer⟩ next budget ⟨lexer, stands, rfl, allowed⟩ again
    obtain ⟨lexeme, after, found, visible, same⟩ := stands.groupPass?_again again
    rw [same]
    exact ⟨by omega, stands.allows_of_next found visible allowed⟩
  · rintro ⟨read, pointer⟩ ⟨outcome, final⟩ budget ⟨lexer, stands, rfl, allowed⟩ done
    refine ⟨by omega, ?_⟩
    rintro body stop rfl visible
    obtain ⟨lexeme, after, found, whole, rfl⟩ := stands.groupPass?_done done
    obtain ⟨-, same⟩ := List.append_inj' whole rfl
    cases same
    exact stands.allows_of_next found visible allowed

end Lexer

namespace Header

variable {Item : Type} {text : String} {line : Nat}
  {glean? : List Lexeme → Lexeme → Option (Gleaned Item)}

/-- The number of groups that are read of a list: one in each pass. -/
def listGroups (glean? : List Lexeme → Lexeme → Option (Gleaned Item)) (pointer : Pointer) : Nat :=
  (passes (fun state => state.2.left) (listPass? glean?) (⟨[], []⟩, pointer)).length

/-- The number of tokens that are read for the groups of a list. -/
def listTokens (glean? : List Lexeme → Lexeme → Option (Gleaned Item)) (pointer : Pointer) : Nat :=
  ((passes (fun state => state.2.left) (listPass? glean?) (⟨[], []⟩, pointer)).map fun state =>
    state.2.groupTokens separators).sum

theorem listGroups_le (pointer : Pointer) :
    listGroups glean? pointer ≤ listTokens glean? pointer := by
  rw [listGroups, ← List.length_map (fun state => state.2.groupTokens separators)]
  refine List.length_le_sum_of_one_le _ fun count member => ?_
  obtain ⟨state, -, rfl⟩ := List.mem_map.mp member
  exact state.2.groupTokens_pos separators

/-- What a pass over a list leads to: a violation, or a place that is good to read on at. -/
inductive Leads (good : Pointer → Prop) :
    Round (Gathered Item × Pointer) (List Note × Except Violation (List Item × Pointer)) →
      Prop where
  | fails (notes : List Note) (violation : Violation) : Leads good (.done (notes, .error violation))
  | closes (notes : List Note) (items : List Item) {after : Pointer} (fine : good after) :
      Leads good (.done (notes, .ok (items, after)))
  | again (gathered : Gathered Item) {after : Pointer} (fine : good after) :
      Leads good (.again (gathered, after))

variable {round : Round (Gathered Item × Pointer)
  (List Note × Except Violation (List Item × Pointer))}

theorem Leads.imp {good better : Pointer → Prop} (leads : Leads good round)
    (implies : ∀ after, good after → better after) : Leads better round := by
  cases leads with
  | fails notes violation => exact .fails notes violation
  | closes notes items fine => exact .closes notes items (implies _ fine)
  | again gathered fine => exact .again gathered (implies _ fine)

/-- Behind a group that a separator stops, a list goes on, or is closed, at the place after it. -/
theorem leads_of_endsList? {gathered : Gathered Item} {after : Pointer} {group : Group}
    {ends : Bool}
    (separates : endsList? group.toList = some (.ok ends))
    (found : listRound? glean? gathered after group.toList = some round) :
    Leads (· = after) round := by
  rw [listRound?, separates, Option.bind_some] at found
  dsimp only at found
  rw [group.toList_zero, Option.bind_some] at found
  split at found
  · cases found
    exact .closes _ _ rfl
  · obtain ⟨⟨notes, violation | item?⟩, -, rfl⟩ := Option.map_eq_some_iff.mp found
    · exact .fails _ _
    · cases ends with
      | true => exact .closes _ _ rfl
      | false => exact .again _ rfl

/-- A list goes on, or is closed, only behind a group in which the line did not end. -/
theorem leads_of_listRound? {gathered : Gathered Item} {after : Pointer} {group : Group}
    (found : listRound? glean? gathered after group.toList = some round) :
    Leads (fun place => place = after ∧ group.stop.kind ≠ .empty) round := by
  have ends := endsList?_toList group
  split at ends
  · rename_i bracket
    exact (leads_of_endsList? ends found).imp fun _ same => ⟨same, by rw [bracket]; decide⟩
  · split at ends
    · rename_i comma
      exact (leads_of_endsList? ends found).imp fun _ same => ⟨same, by rw [comma]; decide⟩
    · rw [listRound?, ends] at found
      cases found
      exact .fails _ _

/-- What a list that is closed leaves of a budget. -/
def ListSpares (text : String) (line : Nat)
    (result : List Note × Except Violation (List Item × Pointer)) (budget : Nat) : Prop :=
  ∀ items after, result.2 = .ok (items, after) → after.Allows text line budget

/-- A list goes on, or is closed, with what its group leaves of a budget. -/
theorem leads_of_listPass? {lexer : Lexer} (stands : lexer.In line text.toList) {budget : Nat}
    (allowed : lexer.rest.length < budget) {gathered : Gathered Item}
    (found : listPass? glean? (gathered, Pointer.of text lexer) = some round) :
    Leads (fun after => after.Allows text line
      (budget - (Pointer.of text lexer).groupTokens separators)) round := by
  rw [listPass?, stands.group?, Option.bind_some] at found
  cases read : lexer.nextUntil separators with
  | mk outcome after =>
    rw [read] at found
    cases outcome with
    | error error =>
      cases found
      exact .fails _ _
    | ok group =>
      refine (leads_of_listRound? found).imp ?_
      rintro _ ⟨rfl, visible⟩
      exact (stands.groupTokens_le separators allowed).2 group after read visible

/-- The tokens of a list are paid for with its characters, if the list is closed. -/
theorem listTokens_le {lexer : Lexer} (stands : lexer.In line text.toList) {budget : Nat}
    (allowed : lexer.rest.length < budget)
    {result : List Note × Except Violation (List Item × Pointer)}
    (comes : list? glean? (⟨[], []⟩, Pointer.of text lexer) = some result) :
    listTokens glean? (Pointer.of text lexer) ≤ budget ∧
      ListSpares text line result (budget - listTokens glean? (Pointer.of text lexer)) := by
  rw [list?_eq] at comes
  refine sum_passes_le (fun state => state.2.groupTokens separators)
    (fun state budget => state.2.Allows text line budget) (ListSpares text line) ?_ ?_
    ⟨lexer, stands, rfl, allowed⟩ comes
  · rintro ⟨gathered, pointer⟩ next budget ⟨lexer, stands, rfl, allowed⟩ again
    refine ⟨(stands.groupTokens_le separators allowed).1, ?_⟩
    cases leads_of_listPass? stands allowed again with
    | again _ fine => exact fine
  · rintro ⟨gathered, pointer⟩ last budget ⟨lexer, stands, rfl, allowed⟩ done
    refine ⟨(stands.groupTokens_le separators allowed).1, ?_⟩
    rintro items final closed
    cases leads_of_listPass? stands allowed done with
    | fails => cases closed
    | closes _ _ fine =>
      cases closed
      exact fine

end Header

/-! ### Whole headers -/

/-- What reading comes to, `none` for a breakdown, and how many tokens and groups of lists are read
for it. -/
structure Counted (Value : Type) where
  outcome? : Option (Except Violation Value)
  tokens : Nat
  groups : Nat

namespace Counted

/-- Reading goes on with a value, and ends with a violation. -/
instance : Monad Counted where
  pure value := ⟨some (.ok value), 0, 0⟩
  bind first next :=
    match first.outcome? with
    | some (.ok value) =>
      ⟨(next value).outcome?, first.tokens + (next value).tokens,
        first.groups + (next value).groups⟩
    | some (.error violation) => ⟨some (.error violation), first.tokens, first.groups⟩
    | none => ⟨none, first.tokens, first.groups⟩

variable {Value Other : Type}

theorem outcome?_bind (first : Counted Value) (next : Value → Counted Other) :
    (first >>= next).outcome? =
      first.outcome?.bind fun
        | .ok value => (next value).outcome?
        | .error violation => some (.error violation) := by
  obtain ⟨_ | violation | value, tokens, groups⟩ := first <;> rfl

/-- Reading comes to an outcome within a budget, and does not read more groups than tokens. What it
leaves of the budget is good for what it may go on with. -/
structure Within (counted : Counted Value) (budget : Nat) (good : Value → Nat → Prop) : Prop where
  comes : counted.outcome? ≠ none
  tokens : counted.tokens ≤ budget
  groups : counted.groups ≤ counted.tokens
  goesOn : ∀ value, counted.outcome? = some (.ok value) → good value (budget - counted.tokens)

theorem within_pure {value : Value} {budget : Nat} {good : Value → Nat → Prop}
    (fine : good value budget) : (pure value : Counted Value).Within budget good := by
  refine ⟨nofun, Nat.zero_le _, Nat.le_refl _, ?_⟩
  rintro _ ⟨⟩
  exact fine

theorem Within.bind {first : Counted Value} {next : Value → Counted Other} {budget : Nat}
    {middle : Value → Nat → Prop} {good : Other → Nat → Prop} (within : first.Within budget middle)
    (later : ∀ value spare, middle value spare → (next value).Within spare good) :
    (first >>= next).Within budget good := by
  obtain ⟨outcome?, tokens, groups⟩ := first
  obtain ⟨comes, pays, grouped, goesOn⟩ := within
  obtain _ | violation | value := outcome?
  · exact absurd rfl comes
  · exact ⟨nofun, pays, grouped, nofun⟩
  · obtain ⟨comesLater, paysLater, groupedLater, goesOnLater⟩ := later value _ (goesOn value rfl)
    refine ⟨comesLater, ?_, ?_, fun other found => ?_⟩
    · show tokens + (next value).tokens ≤ budget
      dsimp only at pays paysLater
      omega
    · show groups + (next value).groups ≤ tokens + (next value).tokens
      exact Nat.add_le_add grouped groupedLater
    · show good other (budget - (tokens + (next value).tokens))
      rw [← Nat.sub_sub]
      exact goesOnLater other found

end Counted

/-- Reads one token, which has to be of a known kind. -/
def Pointer.expected (kind : Token.Kind) (pointer : Pointer) : Counted (Lexeme × Pointer) where
  outcome? := (pointer.expect? kind).map fun
    | (.ok lexeme, after) => .ok (lexeme, after)
    | (.error violation, _) => .error violation
  tokens := 1
  groups := 0

namespace Header

/-- Reads a list after its opening bracket. -/
def countedList {Item : Type} (glean? : List Lexeme → Lexeme → Option (Gleaned Item))
    (pointer : Pointer) : Counted (List Item × Pointer) where
  outcome? := (list? glean? (⟨[], []⟩, pointer)).map Prod.snd
  tokens := listTokens glean? pointer
  groups := listGroups glean? pointer

def gleanTag? (_ : List Lexeme) (first : Lexeme) : Option (Gleaned String) := some (gleanTag first)

/-- Reads the name of a rule and what opens its tag list. -/
def countedOpening (pointer : Pointer) : Counted (String × Pointer) := do
  let (name, after) ← pointer.expected .identifier
  let (_, after) ← after.expected .leftBracket
  return (name.token.text, after)

/-- Reads the metadata list of a header whose tag list is read. -/
def countedClosing (name : String) (tags : List String) (pointer : Pointer) : Counted Rule := do
  let (_, after) ← pointer.expected .leftBracket
  let (values, _) ← countedList gleanMetadata? after
  return ⟨name, tags, values, []⟩

/-- Reads the header of a rule. -/
def counted (line : Nat) (text : String) : Counted Rule := do
  let (name, after) ← countedOpening (.start line text)
  let (tags, after) ← countedList gleanTag? after
  countedClosing name tags after

/-! ### A header that is read with a count comes to what it comes to without -/

theorem outcome?_countedOpening (pointer : Pointer) :
    (countedOpening pointer).outcome? = opening? pointer := by
  rw [countedOpening, opening?, Counted.outcome?_bind, Pointer.expected]
  cases pointer.expect? .identifier with
  | none => rfl
  | some answered =>
    obtain ⟨violation | name, after⟩ := answered
    · rfl
    · dsimp only [Option.map_some, Option.bind_some]
      rw [Counted.outcome?_bind, Pointer.expected]
      obtain _ | ⟨violation | bracket, final⟩ := after.expect? .leftBracket <;> rfl

theorem outcome?_countedClosing (name : String) (tags : List String) (pointer : Pointer) :
    (countedClosing name tags pointer).outcome? =
      (closing? name tags pointer).map Reading.outcome := by
  rw [countedClosing, closing?, Counted.outcome?_bind, Pointer.expected]
  cases pointer.expect? .leftBracket with
  | none => rfl
  | some answered =>
    obtain ⟨violation | bracket, after⟩ := answered
    · rfl
    · dsimp only [Option.map_some, Option.bind_some]
      rw [Counted.outcome?_bind, countedList]
      obtain _ | ⟨notes, violation | values⟩ := list? gleanMetadata? (⟨[], []⟩, after) <;> rfl

theorem outcome?_counted (line : Nat) (text : String) :
    (counted line text).outcome? = some (read line text).outcome := by
  have same := congrArg (Option.map Reading.outcome) (read?_eq line text)
  rw [Option.map_some] at same
  rw [← same, counted, read?, Counted.outcome?_bind, outcome?_countedOpening]
  cases opening? (.start line text) with
  | none => rfl
  | some opened =>
    obtain violation | ⟨name, after⟩ := opened
    · rfl
    · dsimp only [Option.bind_some]
      rw [Counted.outcome?_bind, countedList,
        show (fun (_ : List Lexeme) first => some (gleanTag first)) = gleanTag? from rfl]
      cases list? gleanTag? (⟨[], []⟩, after) with
      | none => rfl
      | some read =>
        obtain ⟨notes, violation | ⟨tags, final⟩⟩ := read
        · rfl
        · show (countedClosing name tags final).outcome? =
            ((closing? name tags final).map fun reading =>
              Reading.mk (notes ++ reading.notes) reading.outcome).map Reading.outcome
          rw [outcome?_countedClosing, Option.map_map]
          rfl

/-! ### A header stays within its budget -/

variable {text : String} {line : Nat} {pointer : Pointer} {budget : Nat}

/-- A token that is due pays for itself. -/
theorem expected_within (allowed : pointer.Allows text line budget) {kind : Token.Kind}
    (visible : kind ≠ .empty) :
    (pointer.expected kind).Within budget fun read spare => read.2.Allows text line spare := by
  obtain ⟨lexer, stands, rfl, room⟩ := allowed
  have answered := stands.expect? kind
  rw [Lexer.expect_eq] at answered
  refine ⟨?_, ?_, Nat.zero_le _, fun read found => ?_⟩
  · rw [Pointer.expected, answered]
    exact nofun
  · show 1 ≤ budget
    omega
  · rw [Pointer.expected, answered, Option.map_some, Option.some.injEq] at found
    split at found
    · rename_i lexeme final same
      cases found
      obtain ⟨checks, rfl⟩ := Prod.mk.inj same
      obtain ⟨first, due⟩ := Lexer.checked_eq_ok_iff.mp checks
      exact stands.allows_of_next (Prod.ext first rfl) (due ▸ visible) room
    · cases found

theorem countedList_within {Item : Type} {glean? : List Lexeme → Lexeme → Option (Gleaned Item)}
    {glean : Group → Gleaned Item}
    (agrees : ∀ group, group.Listed → group.isClosing = false →
      glean? group.toList group.first = some (glean group))
    (allowed : pointer.Allows text line budget) :
    (countedList glean? pointer).Within budget fun read spare => read.2.Allows text line spare := by
  obtain ⟨lexer, stands, rfl, room⟩ := allowed
  have comes := list?_of_agrees agrees stands ⟨[], []⟩
  obtain ⟨pays, spares⟩ := listTokens_le stands room comes
  refine ⟨?_, pays, listGroups_le _, fun read found => ?_⟩
  · rw [countedList, comes]
    exact nofun
  · rw [countedList, comes, Option.map_some, Option.some.injEq] at found
    exact spares read.1 read.2 found

theorem gleanTag?_agrees (group : Group) (_ : group.Listed) (_ : group.isClosing = false) :
    gleanTag? group.toList group.first = some (gleanTag group.first) := rfl

theorem gleanMetadata?_agrees (group : Group) (listed : group.Listed)
    (_ : group.isClosing = false) :
    gleanMetadata? group.toList group.first = some (gleanMetadata group) :=
  gleanMetadata?_toList listed

theorem countedOpening_within (allowed : pointer.Allows text line budget) :
    (countedOpening pointer).Within budget fun read spare => read.2.Allows text line spare := by
  refine (expected_within allowed (by decide)).bind fun name spare allowed => ?_
  exact (expected_within allowed (by decide)).bind fun bracket spare allowed =>
    Counted.within_pure allowed

theorem countedClosing_within (allowed : pointer.Allows text line budget) (name : String)
    (tags : List String) : (countedClosing name tags pointer).Within budget fun _ _ => True := by
  refine (expected_within allowed (by decide)).bind fun bracket spare allowed => ?_
  exact (countedList_within gleanMetadata?_agrees allowed).bind fun values spare _ =>
    Counted.within_pure trivial

/-- A header is read within a budget of its characters and one. -/
theorem counted_within (line : Nat) (text : String) :
    (counted line text).Within (text.length + 1) fun _ _ => True := by
  refine (countedOpening_within (Pointer.start_allows text line)).bind fun name spare allowed => ?_
  exact (countedList_within gleanTag?_agrees allowed).bind fun tags spare allowed =>
    countedClosing_within allowed name.1 tags.1

end Header

/-! ### Every line -/

namespace Lexer

open Pointer Header

/-- A lexer behind the first characters of a line. -/
def behind (text : String) (line count : Nat) : Lexer :=
  (ofLine text line).advance (text.toList.take count) (text.toList.drop count)

variable {text : String} {line : Nat} {lexer : Lexer}

theorem behind_in (text : String) (line count : Nat) :
    (behind text line count).In line text.toList :=
  (ofLine_in line text).advance (List.take_append_drop count _).symm

/-- What a list comes to, of which something is gathered already. -/
def listResult {Item : Type} (glean : Group → Gleaned Item) (text : String)
    (gathered : Gathered Item) (list : Entries) :
    List Note × Except Violation (List Item × Pointer) :=
  (gathered.notes ++ (gather glean list.groups).1,
    (outcome glean list).map fun read => (gathered.items ++ read.1, .of text read.2))

/-- The loops that begin at a place in a line end, and with them comes what is read there. -/
structure LoopsEnd (text : String) (lexer : Lexer) : Prop where
  string : Terminates (fun state => state.2.left) (closingPass? lexer.offset)
    (false, Pointer.of text lexer)
    (closed text lexer [] lexer.rest (Token.closingQuote? lexer.rest))
  tokens (read : List Lexeme) : Terminates (fun state => state.2.left) tokenPass?
    (read, Pointer.of text lexer) (lexer.tokens.map (read ++ ·))
  group (stops : List Token.Kind) (read : List Lexeme) :
    Terminates (fun state => state.2.left) (groupPass? stops) (read, Pointer.of text lexer)
      ((lexer.nextUntil stops).1.map fun group => read ++ group.toList,
        Pointer.of text (lexer.nextUntil stops).2)
  /-- A group is read with no more tokens than there are characters left, and one. -/
  few (stops : List Token.Kind) :
    (Pointer.of text lexer).groupTokens stops ≤ lexer.rest.length + 1
  tags (gathered : Gathered String) :
    Terminates (fun state => state.2.left) (listPass? gleanTag?) (gathered, Pointer.of text lexer)
      (listResult (fun group => gleanTag group.first) text gathered (entries lexer))
  metadata (gathered : Gathered Meta) :
    Terminates (fun state => state.2.left) (listPass? gleanMetadata?)
      (gathered, Pointer.of text lexer) (listResult gleanMetadata text gathered (entries lexer))

theorem In.loopsEnd (stands : lexer.In line text.toList) : LoopsEnd text lexer where
  string := by
    have comes := stands.closing? (List.nil_append lexer.rest).symm
    rw [advance_nil rfl, Pointer.closing?_eq] at comes
    exact terminates_of_rounds? comes
  tokens read := terminates_of_rounds? (stands.tokens? read)
  group stops read := terminates_of_rounds? (stands.group? stops read)
  few stops := (stands.groupTokens_le stops (Nat.lt_succ_self _)).1
  tags gathered := terminates_of_rounds? (list?_of_agrees gleanTag?_agrees stands gathered)
  metadata gathered :=
    terminates_of_rounds? (list?_of_agrees gleanMetadata?_agrees stands gathered)

/-- The end of a line is left alone and ends what is read there: a line, a group, and the list that
the group belongs to. -/
structure EndLeaves (text : String) (line : Nat) (lexer : Lexer) : Prop where
  again (lexeme : Lexeme) (after : Lexer) (found : lexer.next = (.ok lexeme, after))
    (empty : lexeme.kind = .empty) : after.next = (.ok ⟨.empty, endOf text line⟩, after)
  tokens (lexeme : Lexeme) (after : Lexer) (found : lexer.next = (.ok lexeme, after))
    (empty : lexeme.kind = .empty) (read : List Lexeme) :
    tokenPass? (read, Pointer.of text lexer) = some (.done (.ok read))
  group (lexeme : Lexeme) (after : Lexer) (found : lexer.next = (.ok lexeme, after))
    (empty : lexeme.kind = .empty) (stops : List Token.Kind) (read : List Lexeme) :
    groupPass? stops (read, Pointer.of text lexer) =
      some (.done (.ok (read ++ [lexeme]), Pointer.of text after))
  list (group : Group) (after : Lexer) (found : lexer.nextUntil separators = (.ok group, after))
    (empty : group.stop.kind = .empty) {Item : Type}
    (glean? : List Lexeme → Lexeme → Option (Gleaned Item)) (gathered : Gathered Item) :
    listPass? glean? (gathered, Pointer.of text lexer) =
      some (.done (gathered.notes, .error (.unexpectedEnd .separator group.stop.span)))

theorem In.endLeaves (stands : lexer.In line text.toList) : EndLeaves text line lexer where
  again lexeme after found empty := by
    have later := (stands.next.1 lexeme after found).2
    have exhausts : Exhausts .token (lexer.answer .token).1 := by
      rw [show (lexer.answer .token).1 = .ok lexeme from congrArg Prod.fst found]
      exact empty
    have nothing := rest_nil_of_exhausts exhausts
    rw [show (lexer.answer .token).2 = after from congrArg Prod.snd found] at nothing
    exact later.next_of_rest_nil nothing
  tokens lexeme after found empty read := by
    rw [stands.tokenPass?_eq, found]
    exact congrArg some (if_pos empty)
  group lexeme after found empty stops read := by
    rw [stands.groupPass?_eq, found]
    exact congrArg some (if_pos (.inl empty))
  list group after found empty _ glean? gathered := by
    have ends := endsList?_toList group
    rw [empty, if_neg (by decide), if_neg (by decide)] at ends
    rw [listPass?, stands.group?, Option.bind_some, found]
    show listRound? glean? gathered _ group.toList = _
    rw [listRound?, ends]
    rfl

/-- Every loop over a line ends, wherever in the line it begins: each of its passes leaves it or
shortens what is left of the line, and the end of the line leaves all of them. A line is read with
no more tokens than it has characters and one, and so is the header of a rule, in no more groups. -/
theorem reading_ends (text : String) (line : Nat) :
    (∀ count, LoopsEnd text (behind text line count) ∧
      EndLeaves text line (behind text line count)) ∧
    Terminates (fun state => state.2.left) tokenPass? ([], .start 1 text) (tokenize text) ∧
    (passes (fun state => state.2.left) tokenPass? ([], .start 1 text)).length ≤
      text.length + 1 ∧
    (counted line text).outcome? = some (Header.read line text).outcome ∧
    (counted line text).tokens ≤ text.length + 1 ∧
    (counted line text).groups ≤ text.length + 1 := by
  have within := counted_within line text
  refine ⟨fun count => ?_, ?_, ?_, outcome?_counted line text, within.tokens,
    within.groups.trans within.tokens⟩
  · exact ⟨(behind_in text line count).loopsEnd, (behind_in text line count).endLeaves⟩
  · have comes := (ofLine_in 1 text).tokens? []
    rw [show (([] : List Lexeme) ++ ·) = id from rfl, Except.map_id] at comes
    exact terminates_of_rounds? comes
  · exact (ofLine_in 1 text).length_tokenPasses_le []

/-- Where a list is never closed, one token is read beyond the characters of the line. -/
example : (counted 1 "a[,,").tokens = 5 ∧ (counted 1 "a[,,").groups = 3 := by decide +kernel

end Lexer

end YaraReport
