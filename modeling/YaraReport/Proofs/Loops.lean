/-
This file runs loops round by round. A round ends with another one or with what the
loop comes to, and every round but the last has to leave less to do. A loop in which
one does not would go on for ever, and it is broken down: so what a loop comes to is
known to be reached (`rounds?`), and so are the states in which its rounds begin
(`passes`).
-/

import Mathlib.Algebra.GroupWithZero.Nat

namespace YaraReport

/-- What a round of a loop ends with: another round, or what the loop comes to. -/
inductive Round (State Result : Type) where
  | again (state : State)
  | done (result : Result)

/-- What a loop comes to whose rounds bring it closer to an end. It breaks down where a round does,
or where a round leaves as much to do as there was. -/
def rounds? {State Result : Type} (left : State → Nat)
    (round? : State → Option (Round State Result)) (state : State) : Option Result :=
  match round? state with
  | none => none
  | some (.done result) => some result
  | some (.again next) =>
    if left next < left state then rounds? left round? next else none
termination_by left state

/-- The states in which the rounds of a loop begin, in order. -/
def passes {State Result : Type} (left : State → Nat)
    (round? : State → Option (Round State Result)) (state : State) : List State :=
  state :: match round? state with
    | some (.again next) => if left next < left state then passes left round? next else []
    | _ => []
termination_by left state

section Rounds

variable {State Result : Type} {left : State → Nat} {round? : State → Option (Round State Result)}
  {state next : State}

theorem rounds?_of_done {result : Result} (done : round? state = some (.done result)) :
    rounds? left round? state = some result := by
  rw [rounds?, done]

theorem rounds?_of_again (again : round? state = some (.again next))
    (closer : left next < left state) :
    rounds? left round? state = rounds? left round? next := by
  rw [rounds?, again]
  exact if_pos closer

theorem passes_of_done {result : Result} (done : round? state = some (.done result)) :
    passes left round? state = [state] := by
  rw [passes, done]

theorem passes_of_again (again : round? state = some (.again next))
    (closer : left next < left state) :
    passes left round? state = state :: passes left round? next := by
  rw [passes, again]
  exact congrArg _ (if_pos closer)

/-- A loop that begins in a state ends with a result: each of its rounds is the last one or leaves
less to do than there was. -/
structure Terminates (left : State → Nat) (round? : State → Option (Round State Result))
    (state : State) (result : Result) : Prop where
  comes : rounds? left round? state = some result
  closer : ∀ begun ∈ passes left round? state,
    (∃ last, round? begun = some (.done last)) ∨
      ∃ next, round? begun = some (.again next) ∧ left next < left begun

theorem terminates_of_rounds? {result : Result}
    (comes : rounds? left round? state = some result) : Terminates left round? state result := by
  refine ⟨comes, ?_⟩
  fun_induction rounds? left round? state with
  | case1 => cases comes
  | case2 state last done =>
    rw [passes_of_done done]
    exact List.forall_mem_singleton.mpr (.inl ⟨last, done⟩)
  | case3 state next again closer inductionHypothesis =>
    rw [passes_of_again again closer]
    exact List.forall_mem_cons.mpr ⟨.inr ⟨next, again, closer⟩, inductionHypothesis comes⟩
  | case4 => cases comes

/-- Where each round is paid for out of what is allowed in the state that it begins in, and what is
left of that is allowed after it, the whole loop is paid for in the same way. -/
theorem sum_passes_le {result : Result} (work : State → Nat) (allows : State → Nat → Prop)
    (spares : Result → Nat → Prop)
    (goesOn : ∀ state next budget, allows state budget → round? state = some (.again next) →
      work state ≤ budget ∧ allows next (budget - work state))
    (ends : ∀ state last budget, allows state budget → round? state = some (.done last) →
      work state ≤ budget ∧ spares last (budget - work state))
    {budget : Nat} (begun : allows state budget) (comes : rounds? left round? state = some result) :
    ((passes left round? state).map work).sum ≤ budget ∧
      spares result (budget - ((passes left round? state).map work).sum) := by
  fun_induction rounds? left round? state generalizing budget with
  | case1 => cases comes
  | case2 state last done =>
    cases comes
    rw [passes_of_done done, List.map_singleton, List.sum_singleton]
    exact ends state result budget begun done
  | case3 state next again closer inductionHypothesis =>
    obtain ⟨pays, later⟩ := goesOn state next budget begun again
    obtain ⟨paysLater, spare⟩ := inductionHypothesis later comes
    rw [passes_of_again again closer, List.map_cons, List.sum_cons, ← Nat.sub_sub]
    exact ⟨by omega, spare⟩
  | case4 => cases comes

end Rounds

end YaraReport
