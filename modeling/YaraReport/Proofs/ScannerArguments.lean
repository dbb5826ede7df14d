/-
This file proves that the arguments of a scanner depend only on the options that are in
effect when it is started: on what the last call of each kind gave, on the rule files that
are left, each once, on the target and on the data for the modules. That data is a list
with the names in order, each with the value that was given for it last
(`ModuleData.latest_ofPairs`).
-/

import YaraReport.Proofs.Outcome
import YaraReport.Proofs.ScannerCalls
import YaraReport.Proofs.Text.Lines

namespace YaraReport

/-! ### Module data -/

namespace ModuleData

variable {data : ModuleData} {pairs : List (String × String)} {name other value text : String}

theorem put_eq_alter (name value : String) (data : ModuleData) :
    put name value data = alter name (fun _ => value) data := by
  induction data with
  | nil => rfl
  | cons entry rest inductionHypothesis => rw [put, alter, inductionHypothesis]

/-- Data with the names in order, each with the value that pairs give for it last. -/
structure Latest (pairs : List (String × String)) (data : ModuleData) : Prop where
  ordered : Ordered data
  mem_iff : ∀ name value, (name, value) ∈ data ↔ pairs.reverse.lookup name = some value

theorem ofPairs_concat (pairs : List (String × String)) (pair : String × String) :
    ofPairs (pairs ++ [pair]) = alter pair.1 (fun _ => pair.2) (ofPairs pairs) := by
  rw [ofPairs, List.foldl_append, ← put_eq_alter]
  rfl

theorem ordered_ofPairs (pairs : List (String × String)) : Ordered (ofPairs pairs) := by
  induction pairs using List.reverseRecOn with
  | nil => exact .nil
  | append_singleton pairs pair inductionHypothesis =>
    rw [ofPairs_concat]
    exact ordered_alter inductionHypothesis _ _

theorem lookup_ofPairs (pairs : List (String × String)) (name : String) :
    (ofPairs pairs).lookup name = pairs.reverse.lookup name := by
  induction pairs using List.reverseRecOn with
  | nil => rfl
  | append_singleton pairs pair inductionHypothesis =>
    rw [ofPairs_concat, List.reverse_append, List.reverse_singleton, List.singleton_append,
      List.lookup_cons]
    cases same : name == pair.1 with
    | true => rw [eq_of_beq same, lookup_alter_self (ordered_ofPairs pairs)]
    | false => rw [lookup_alter_of_ne _ _ (ne_of_beq_false same), inductionHypothesis]

theorem latest_ofPairs (pairs : List (String × String)) : Latest pairs (ofPairs pairs) where
  ordered := ordered_ofPairs pairs
  mem_iff name value := by rw [(ordered_ofPairs pairs).mem_iff, lookup_ofPairs]

theorem Latest.mem_pairs (latest : Latest pairs data) {pair : String × String}
    (member : pair ∈ data) : pair ∈ pairs := by
  obtain ⟨before, after, whole, -⟩ :=
    List.lookup_eq_some_iff.mp ((latest.mem_iff pair.1 pair.2).mp member)
  rw [← List.mem_reverse, whole]
  exact List.mem_append_right before List.mem_cons_self

/-- A pair that some argument is read as. -/
def Accepted (pair : String × String) : Prop := ∃ text, ofArgument? text = some pair

theorem ofArgument?_of_toList {written given : List Char}
    (whole : text.toList = written ++ '=' :: given) (first : '=' ∉ written) :
    ofArgument? text =
      if written.isEmpty || given.isEmpty then none
      else some (String.ofList written, String.ofList given) := by
  rw [ofArgument?, whole, Text.cutAt_append first]
  dsimp only
  rw [Text.drop_past]

/-- A pair that is read from an argument has a name without equals sign, and neither part is
empty. -/
theorem Accepted.proper {pair : String × String} (accepted : Accepted pair) :
    pair.1.toList ≠ [] ∧ '=' ∉ pair.1.toList ∧ pair.2.toList ≠ [] := by
  obtain ⟨text, read⟩ := accepted
  by_cases separated : '=' ∈ text.toList
  · obtain ⟨written, given, whole, first⟩ := List.eq_append_cons_of_mem separated
    rw [ofArgument?_of_toList whole first] at read
    split at read
    · cases read
    · rename_i filled
      cases read
      rw [Bool.or_eq_true, List.isEmpty_iff, List.isEmpty_iff, not_or] at filled
      rw [String.toList_ofList, String.toList_ofList]
      exact ⟨filled.1, first, filled.2⟩
  · rw [ofArgument?, Text.cutAt_of_not_mem separated] at read
    cases read

theorem Accepted.read_back {pair : String × String} (accepted : Accepted pair) :
    ofArgument? (pair.1 ++ "=" ++ pair.2) = some pair := by
  obtain ⟨named, first, filled⟩ := accepted.proper
  have whole : (pair.1 ++ "=" ++ pair.2).toList = pair.1.toList ++ '=' :: pair.2.toList := by
    rw [String.toList_append, String.toList_append, List.append_assoc]
    rfl
  rw [ofArgument?_of_toList whole first, if_neg, String.ofList_toList, String.ofList_toList]
  rw [Bool.or_eq_true, List.isEmpty_iff, List.isEmpty_iff, not_or]
  exact ⟨named, filled⟩

end ModuleData

namespace Scanner

variable {executable : Executable} {final : Scanner} {calls : List Call}

/-! ### The rules -/

/-- The file that was last chosen as the compiled rules, and the files added after it. -/
def chosenPaths (calls : List Call) : List String :=
  (last? Call.compiled? calls).toList ++ addedPaths calls

theorem rules_after (executable : Executable) (calls : List Call) :
    ((ofExecutable executable).after calls).rules = distinctPaths (chosenPaths calls) := by
  rw [← foldl_addPath, chosenPaths, after]
  cases last? Call.compiled? calls <;> rfl

/-! ### The arguments -/

theorem usesCompiled_iff (scanner : Scanner) :
    scanner.usesCompiled = true ↔
      scanner.compiled = true ∨ scanner.rules.map Path.extension? = [some compiledExtension] := by
  rw [usesCompiled, Bool.or_eq_true]
  refine or_congr_right ?_
  rcases scanner.rules with _ | ⟨only, _ | ⟨next, later⟩⟩
  · exact iff_of_false Bool.false_ne_true (List.cons_ne_nil _ _).symm
  · rw [List.map_singleton, List.cons_eq_cons, and_iff_left rfl]
    exact decide_eq_true_iff
  · refine iff_of_false Bool.false_ne_true fun single => ?_
    exact List.cons_ne_nil _ _ (List.tail_eq_of_cons_eq single)

theorem negate_after (executable : Executable) (calls : List Call) :
    ((ofExecutable executable).after calls).negate = true ↔
      last? Call.negate? calls = some true := by
  show (last? Call.negate? calls).getD false = true ↔ _
  rcases last? Call.negate? calls with _ | _ | _ <;> decide

theorem maxRules_after (executable : Executable) (calls : List Call) :
    ((ofExecutable executable).after calls).maxRules = (last? Call.maxRules? calls).join := by
  show (last? Call.maxRules? calls).getD none = _
  cases last? Call.maxRules? calls <;> rfl

theorem compiled_after (executable : Executable) (calls : List Call) :
    ((ofExecutable executable).after calls).compiled = asksCompiled calls :=
  Bool.or_false _

/-- The arguments of a scanner that calls made ready follow from what the last call of each kind
gave, from the data of the modules and from the target: first the options, then every module once
with its last value, then the rule files, each once. An argument for a module is read back as the
name and the value it was made of. How the calls that set options stand between those about the
rules makes no difference. -/
theorem arguments_of_calls (ready : calls.foldlM Scanner.call (ofExecutable executable) = .ok final)
    (pairs : List (String × String)) (target : String) :
    (∃ data, ModuleData.Latest pairs data ∧
      ((∀ pair ∈ pairs, ModuleData.Accepted pair) → ∀ pair ∈ data,
        ModuleData.ofArgument? (pair.1 ++ "=" ++ pair.2) = some pair) ∧
      final.arguments target (ModuleData.ofPairs pairs) =
        ["-g", "-m", "-s"] ++ (if last? Call.negate? calls = some true then ["-n"] else []) ++
          (match (last? Call.maxRules? calls).join with
            | some count => ["-l", toString count]
            | none => []) ++
          (data.flatMap fun pair => ["-x", pair.1 ++ "=" ++ pair.2]) ++
          (if asksCompiled calls = true ∨
              (distinctPaths (chosenPaths calls)).map Path.extension? = [some "yaracc"] then ["-C"]
            else []) ++
          distinctPaths (chosenPaths calls) ++ [target]) ∧
      ∀ others, Agree calls others →
        others.foldlM Scanner.call (ofExecutable executable) = .ok final := by
  have latest := ModuleData.latest_ofPairs pairs
  refine ⟨⟨ModuleData.ofPairs pairs, latest, fun accepted pair member => ?_, ?_⟩, ?_⟩
  · exact (accepted pair (latest.mem_pairs member)).read_back
  · have uses := usesCompiled_iff ((ofExecutable executable).after calls)
    rw [eq_after ready, arguments, maxRules_after]
    simp only [negate_after, uses, compiled_after, rules_after]
    rfl
  · intro others agree
    rw [agree.foldlM_call, ready]

/-- Rules that were chosen before the compiled rules are not scanned with, and a value that was
given again replaces the first one. -/
theorem arguments_of_calls_replaced :
    ∃ final data, ModuleData.Latest [("cuckoo", "a"), ("pe", "x=y"), ("cuckoo", "b")] data ∧
      (∀ pair ∈ data, ModuleData.ofArgument? (pair.1 ++ "=" ++ pair.2) = some pair) ∧
      final.arguments "/x" (ModuleData.ofPairs [("cuckoo", "a"), ("pe", "x=y"), ("cuckoo", "b")]) =
        ["-g", "-m", "-s", "-l", "3"] ++
          (data.flatMap fun pair => ["-x", pair.1 ++ "=" ++ pair.2]) ++ ["-C", "/t", "/x"] ∧
      [⟨.quiet, .rule "/s"⟩, ⟨.quiet, .compiled "/t"⟩, ⟨.quiet, .rule "/./t"⟩,
        ⟨.quiet, .negate true⟩, ⟨.quiet, .limit 7⟩, ⟨.quiet, .maxRules (some 3)⟩,
        ⟨.quiet, .negate false⟩].foldlM Scanner.call (ofExecutable ⟨"/s"⟩) = .ok final := by
  obtain ⟨calls, made⟩ : ∃ calls : List Call, calls = [⟨.quiet, .negate true⟩,
      ⟨.quiet, .rule "/s"⟩, ⟨.quiet, .limit 7⟩, ⟨.quiet, .compiled "/t"⟩,
      ⟨.quiet, .maxRules (some 3)⟩, ⟨.quiet, .negate false⟩, ⟨.quiet, .rule "/./t"⟩] := ⟨_, rfl⟩
  have ready : calls.foldlM Scanner.call (ofExecutable ⟨"/s"⟩) =
      .ok ⟨⟨"/s"⟩, ["/t"], true, false, some 3, 7⟩ := by
    rw [made]
    decide +kernel
  have rules : distinctPaths (chosenPaths calls) = ["/t"] := by
    rw [made]
    decide +kernel
  obtain ⟨⟨data, latest, reads, told⟩, commutes⟩ := arguments_of_calls ready
    [("cuckoo", "a"), ("pe", "x=y"), ("cuckoo", "b")] "/x"
  refine ⟨_, data, latest, reads fun pair member => ⟨pair.1 ++ "=" ++ pair.2, ?_⟩, ?_,
    commutes _ ⟨by rw [made]; rfl, by rw [made]; rfl⟩⟩
  · revert pair
    decide +kernel
  · have negated : last? Call.negate? calls ≠ some true := by
      rw [made]
      decide
    have asked : asksCompiled calls = true := by
      rw [made]
      rfl
    have limited : (last? Call.maxRules? calls).join = some 3 := by
      rw [made]
      rfl
    rw [told, rules, limited, if_neg negated, if_pos (.inl asked), List.append_assoc,
      List.append_assoc]
    rfl

end Scanner

end YaraReport
