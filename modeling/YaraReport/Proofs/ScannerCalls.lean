/-
This file proves what is left of the calls that make a scanner ready. However many there
are, the last one of each kind counts, and the rules are the file that was last chosen as
compiled rules and the files added after it (`Scanner.eq_after`). Calls that set options
can be made before or after those that choose rules (`Scanner.foldlM_call`).
-/

import Mathlib.Data.List.DropRight
import YaraReport.Proofs.Collections

namespace YaraReport.Scanner

/-! ### Calls -/

/-- What is asked for while a scanner is made ready. -/
inductive Choice where
  | rule (path : String)
  | compiled (path : String)
  | negate (negate : Bool)
  | maxRules (count : Option Nat)
  | limit (limit : Nat)

/-- A call while a scanner is made ready, and the surroundings in which it is made. -/
structure Call where
  machine : Machine
  choice : Choice

/-- The scanner after a call. -/
def call (scanner : Scanner) (call : Call) : Except Failure Scanner :=
  match call.choice with
  | .rule path => scanner.addRule call.machine path
  | .compiled path => scanner.useCompiled call.machine path
  | .negate negate => .ok { scanner with negate }
  | .maxRules maxRules => .ok { scanner with maxRules }
  | .limit limit => .ok { scanner with limit }

namespace Call

/-- The absolute path of the rule file that a call adds. -/
def added? (call : Call) : Option String :=
  match call.choice with
  | .rule path => some (call.machine.absolute path)
  | _ => none

/-- The absolute path of the file that a call chooses as the compiled rules. -/
def compiled? (call : Call) : Option String :=
  match call.choice with
  | .compiled path => some (call.machine.absolute path)
  | _ => none

def negate? (call : Call) : Option Bool :=
  match call.choice with
  | .negate negate => some negate
  | _ => none

def maxRules? (call : Call) : Option (Option Nat) :=
  match call.choice with
  | .maxRules maxRules => some maxRules
  | _ => none

def limit? (call : Call) : Option Nat :=
  match call.choice with
  | .limit limit => some limit
  | _ => none

/-- Whether a call is about the rules. All others set an option. -/
def isRules (call : Call) : Bool :=
  match call.choice with
  | .rule _ | .compiled _ => true
  | .negate _ | .maxRules _ | .limit _ => false

end Call

variable {scanner next final : Scanner} {calls : List Call} {call : Call}

theorem map_existing_eq_ok {machine : Machine} {path : String} {change : String → Scanner}
    (accepted : (existing machine path).map change = .ok next) :
    next = change (machine.absolute path) := by
  unfold existing at accepted
  split at accepted
  · exact (Except.ok.inj accepted).symm
  · cases accepted

/-! ### What is in effect -/

/-- What the last of the calls gives that give something. -/
def last? {Value : Type} (given? : Call → Option Value) (calls : List Call) : Option Value :=
  (calls.filterMap given?).getLast?

def asksCompiled (calls : List Call) : Bool := calls.any fun call => call.compiled?.isSome

/-- The files that are added once the compiled rules were last chosen, if they ever were. -/
def addedPaths (calls : List Call) : List String :=
  (calls.rtakeWhile fun call => call.compiled?.isNone).filterMap Call.added?

/-- The scanner with the options and rules that are in effect after calls. -/
def after (scanner : Scanner) (calls : List Call) : Scanner where
  executable := scanner.executable
  rules := (addedPaths calls).foldl addPath
    ((last? Call.compiled? calls).elim scanner.rules fun path => [path])
  compiled := asksCompiled calls || scanner.compiled
  negate := (last? Call.negate? calls).getD scanner.negate
  maxRules := (last? Call.maxRules? calls).getD scanner.maxRules
  limit := (last? Call.limit? calls).getD scanner.limit

theorem last?_concat {Value : Type} (given? : Call → Option Value) (calls : List Call)
    (call : Call) : last? given? (calls ++ [call]) = (given? call).or (last? given? calls) := by
  rw [last?, last?, List.filterMap_append, List.filterMap_cons, List.getLast?_append]
  cases given? call <;> rfl

theorem asksCompiled_concat (calls : List Call) (call : Call) :
    asksCompiled (calls ++ [call]) = (call.compiled?.isSome || asksCompiled calls) := by
  rw [asksCompiled, List.any_append, List.any_cons, List.any_nil, Bool.or_false, Bool.or_comm]
  rfl

theorem addedPaths_concat (calls : List Call) (call : Call) :
    addedPaths (calls ++ [call]) =
      if call.compiled?.isNone then addedPaths calls ++ call.added?.toList else [] := by
  rw [addedPaths, List.rtakeWhile_concat]
  split
  · rw [List.filterMap_append, List.filterMap_cons]
    cases call.added? <;> rfl
  · rfl

theorem rules_after_concat (scanner : Scanner) (calls : List Call) (call : Call) :
    (scanner.after (calls ++ [call])).rules =
      match call.compiled? with
      | some path => [path]
      | none => call.added?.toList.foldl addPath (scanner.after calls).rules := by
  unfold after
  dsimp only
  rw [addedPaths_concat, last?_concat]
  cases call.compiled? with
  | some path => rfl
  | none =>
    rw [Option.isNone_none, if_pos rfl, Option.none_or, List.foldl_append]

theorem after_concat (scanner : Scanner) (calls : List Call) (call : Call) :
    scanner.after (calls ++ [call]) =
      { executable := scanner.executable
        rules :=
          match call.compiled? with
          | some path => [path]
          | none => call.added?.toList.foldl addPath (scanner.after calls).rules
        compiled := call.compiled?.isSome || (scanner.after calls).compiled
        negate := call.negate?.getD (scanner.after calls).negate
        maxRules := call.maxRules?.getD (scanner.after calls).maxRules
        limit := call.limit?.getD (scanner.after calls).limit } := by
  rw [← rules_after_concat]
  unfold after
  rw [asksCompiled_concat, last?_concat Call.negate?, last?_concat Call.maxRules?,
    last?_concat Call.limit?, Option.getD_or, Option.getD_or, Option.getD_or, Bool.or_assoc]

/-- What is in effect after one more call is what that call makes of the scanner. -/
theorem call_after (accepted : (scanner.after calls).call call = .ok next) :
    next = scanner.after (calls ++ [call]) := by
  rw [after_concat]
  obtain ⟨machine, choice⟩ := call
  cases choice with
  | rule path | compiled path =>
    rw [map_existing_eq_ok accepted]
    rfl
  | negate negate | maxRules maxRules | limit limit =>
    cases accepted
    rfl

theorem foldlM_call_concat (calls : List Call) (call : Call) (scanner : Scanner) :
    (calls ++ [call]).foldlM Scanner.call scanner =
      (calls.foldlM Scanner.call scanner).bind fun before => before.call call := by
  rw [List.foldlM_append]
  refine congrArg (Except.bind (calls.foldlM Scanner.call scanner)) (funext fun before => ?_)
  rw [List.foldlM_cons]
  exact bind_pure _

/-- Calls that succeed leave nothing behind but what is in effect after them. -/
theorem eq_after (ready : calls.foldlM Scanner.call scanner = .ok final) :
    final = scanner.after calls := by
  induction calls using List.reverseRecOn generalizing final with
  | nil => exact (Except.ok.inj ready).symm
  | append_singleton calls call inductionHypothesis =>
    rw [foldlM_call_concat] at ready
    cases before : calls.foldlM Scanner.call scanner with
    | error failure =>
      rw [before] at ready
      cases ready
    | ok middle =>
      rw [before, inductionHypothesis before] at ready
      exact call_after ready

/-! ### Options before and after rules -/

/-- The scanner with the option that a call sets. -/
def set (scanner : Scanner) (call : Call) : Scanner :=
  match call.choice with
  | .negate negate => { scanner with negate }
  | .maxRules maxRules => { scanner with maxRules }
  | .limit limit => { scanner with limit }
  | .rule _ | .compiled _ => scanner

theorem call_of_option (option : call.isRules = false) :
    scanner.call call = .ok (scanner.set call) := by
  obtain ⟨machine, choice⟩ := call
  cases choice with
  | rule path | compiled path => cases option
  | negate negate | maxRules maxRules | limit limit => rfl

/-- A rule file is found or missing whatever the options are, and setting one keeps the rules. -/
theorem call_set (option : Call) {rules : Call} (chooses : rules.isRules = true) :
    (scanner.set option).call rules = (scanner.call rules).map (·.set option) := by
  obtain ⟨machine, choice⟩ := rules
  cases choice with
  | rule path | compiled path =>
    show (existing machine path).map _ = ((existing machine path).map _).map _
    cases existing machine path with
    | error failure => rfl
    | ok path => obtain ⟨machine, _ | _ | _ | _ | _⟩ := option <;> rfl
  | negate negate | maxRules maxRules | limit limit => cases chooses

theorem foldlM_call_set (option : Call) (chooses : ∀ call ∈ calls, call.isRules = true) :
    calls.foldlM Scanner.call (scanner.set option) =
      (calls.foldlM Scanner.call scanner).map (·.set option) := by
  induction calls generalizing scanner with
  | nil => rfl
  | cons call calls inductionHypothesis =>
    obtain ⟨here, after⟩ := List.forall_mem_cons.mp chooses
    rw [List.foldlM_cons, List.foldlM_cons, call_set option here]
    cases scanner.call call with
    | error failure => rfl
    | ok next => exact inductionHypothesis after

/-- Calls do what those of them do that are about the rules, followed by those that set
options. -/
theorem foldlM_call (calls : List Call) (scanner : Scanner) :
    calls.foldlM Scanner.call scanner =
      ((calls.filter Call.isRules).foldlM Scanner.call scanner).map
        ((calls.filter fun call => !call.isRules).foldl set) := by
  induction calls generalizing scanner with
  | nil => rfl
  | cons call calls inductionHypothesis =>
    rw [List.foldlM_cons]
    simp only [List.filter_cons]
    cases kind : call.isRules with
    | true =>
      simp only [Bool.not_true, Bool.false_eq_true, if_true, if_false, List.foldlM_cons]
      cases scanner.call call with
      | error failure => rfl
      | ok next => exact inductionHypothesis next
    | false =>
      -- The option is set first here and last there, so it has to pass all the rules.
      have chooses : ∀ other ∈ calls.filter Call.isRules, other.isRules = true := fun _ member =>
        (List.mem_filter.mp member).2
      simp only [Bool.not_false, Bool.false_eq_true, if_true, if_false, List.foldl_cons]
      rw [call_of_option kind]
      refine (inductionHypothesis (scanner.set call)).trans ?_
      rw [foldlM_call_set call chooses]
      cases (calls.filter Call.isRules).foldlM Scanner.call scanner <;> rfl

/-- Calls agree if they set the same options and choose the same rules, each in the same order. -/
structure Agree (calls others : List Call) : Prop where
  rules : others.filter Call.isRules = calls.filter Call.isRules
  options : (others.filter fun call => !call.isRules) = calls.filter fun call => !call.isRules

/-- How the calls that set options stand between those about the rules makes no difference, not
even to how calls fail. -/
theorem Agree.foldlM_call {others : List Call} (agree : Agree calls others) (scanner : Scanner) :
    others.foldlM Scanner.call scanner = calls.foldlM Scanner.call scanner := by
  rw [Scanner.foldlM_call others, Scanner.foldlM_call calls, agree.rules, agree.options]

end YaraReport.Scanner
