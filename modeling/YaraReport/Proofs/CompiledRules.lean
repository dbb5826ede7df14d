/-
This file proves what a scanner is told of its rules. A call that asks for compiled rules
replaces all rules before it, and from then on the scanner is told that its rules are
compiled; but rule files that are added later are added all the same. So the scanner
loads one compiled file if no other file is added after the last such call
(`compiled_rules_replace`). A request that names compiled rules and no rule files adds
none (`Session.scans_one_compiled_file`).
-/

import YaraReport.Proofs.Outcome
import YaraReport.Proofs.ScannerCalls
import YaraReport.Session

namespace YaraReport

/-! ### Lists of paths -/

theorem length_le_addPath (paths : List String) (path : String) :
    paths.length ≤ (addPath paths path).length := by
  unfold addPath
  split
  · exact Nat.le_refl _
  · rw [List.length_append]
    exact Nat.le_add_right _ _

theorem length_le_foldl_addPath (paths added : List String) :
    paths.length ≤ (added.foldl addPath paths).length := by
  induction added generalizing paths with
  | nil => exact Nat.le_refl _
  | cons path added inductionHypothesis =>
    exact Nat.le_trans (length_le_addPath paths path) (inductionHypothesis _)

theorem addPath_singleton_of_same {path only : String} (same : Path.same path only = true) :
    addPath [only] path = [only] := by
  rw [addPath, List.any_cons, same, Bool.true_or, if_pos rfl]

theorem addPath_singleton_of_not_same {path only : String} (other : Path.same path only = false) :
    addPath [only] path = [only, path] := by
  rw [addPath, List.any_cons, other, List.any_nil, Bool.or_false, if_neg Bool.false_ne_true]
  rfl

/-- One path stays alone if only the same path is added to it. -/
theorem length_foldl_addPath_singleton_iff (only : String) (added : List String) :
    (added.foldl addPath [only]).length = 1 ↔ ∀ path ∈ added, Path.same path only = true := by
  induction added with
  | nil => exact iff_of_true rfl fun _ member => by cases member
  | cons path added inductionHypothesis =>
    rw [List.foldl_cons, List.forall_mem_cons]
    cases same : Path.same path only with
    | true => rw [addPath_singleton_of_same same, inductionHypothesis, and_iff_right rfl]
    | false =>
      have longer := length_le_foldl_addPath [only, path] added
      rw [addPath_singleton_of_not_same same]
      exact iff_of_false (Nat.ne_of_gt longer) fun all => Bool.noConfusion all.1

namespace Scanner

variable {scanner final : Scanner} {calls : List Call}

/-! ### The last compiled rules -/

/-- The last call that asks for compiled rules, and the calls after it. -/
structure LastCompiled (calls : List Call) (machine : Machine) (path : String)
    (later : List Call) : Prop where
  split : ∃ before, calls = before ++ ⟨machine, .compiled path⟩ :: later
  plain : ∀ call ∈ later, call.compiled? = none

theorem exists_lastCompiled (asked : asksCompiled calls = true) :
    ∃ machine path later, LastCompiled calls machine path later := by
  induction calls using List.reverseRecOn with
  | nil => cases asked
  | append_singleton calls call inductionHypothesis =>
    obtain ⟨machine, choice⟩ := call
    rw [asksCompiled_concat] at asked
    cases choice with
    | compiled path => exact ⟨machine, path, [], ⟨calls, rfl⟩, fun _ member => by cases member⟩
    | rule _ | negate _ | maxRules _ | limit _ =>
      obtain ⟨before, path, later, ⟨front, rfl⟩, plain⟩ := inductionHypothesis asked
      refine ⟨before, path, later ++ [_], ⟨front, List.append_assoc _ _ _⟩, fun other member => ?_⟩
      rcases List.mem_append.mp member with earlier | last
      · exact plain other earlier
      · rw [List.mem_singleton.mp last]
        rfl

namespace LastCompiled

variable {machine : Machine} {path : String} {later : List Call}

theorem last?_eq (last : LastCompiled calls machine path later) :
    last? Call.compiled? calls = some (machine.absolute path) := by
  obtain ⟨before, rfl⟩ := last.split
  have chosen : Call.compiled? ⟨machine, .compiled path⟩ = some (machine.absolute path) := rfl
  have none : later.filterMap Call.compiled? = [] := List.filterMap_eq_nil_iff.mpr last.plain
  rw [last?, List.filterMap_append, List.filterMap_cons_some chosen, none, List.getLast?_concat]

theorem asksCompiled_eq (last : LastCompiled calls machine path later) :
    asksCompiled calls = true := by
  obtain ⟨before, rfl⟩ := last.split
  exact List.any_eq_true.mpr ⟨_, List.mem_append_right _ List.mem_cons_self, rfl⟩

theorem addedPaths_eq (last : LastCompiled calls machine path later) :
    addedPaths calls = later.filterMap Call.added? := by
  obtain ⟨before, rfl⟩ := last.split
  have chosen : ¬ (Call.compiled? ⟨machine, .compiled path⟩).isNone = true := Bool.false_ne_true
  have plain : ∀ call ∈ later.reverse, call.compiled?.isNone = true := fun call member =>
    Option.isNone_iff_eq_none.mpr (last.plain call (List.mem_reverse.mp member))
  rw [addedPaths, List.rtakeWhile, List.reverse_append, List.reverse_cons, List.append_assoc,
    List.takeWhile_append_of_pos plain, List.singleton_append, List.takeWhile_cons, if_neg chosen,
    List.append_nil, List.reverse_reverse]

/-- From the last call that asks for compiled rules on, the rules are its file and what is added
after it. -/
theorem rules_after (last : LastCompiled calls machine path later) (scanner : Scanner) :
    (scanner.after calls).compiled = true ∧
      (scanner.after calls).rules =
        (later.filterMap Call.added?).foldl addPath [machine.absolute path] := by
  constructor
  · rw [after, last.asksCompiled_eq, Bool.true_or]
  · rw [after, last.last?_eq, last.addedPaths_eq]
    rfl

end LastCompiled

/-! ### Arguments -/

/-- The arguments before the rules, apart from the one that says that these are compiled. -/
def options (scanner : Scanner) (modules : ModuleData) : List String :=
  ["-g", "-m", "-s"] ++ (if scanner.negate then ["-n"] else []) ++
    (match scanner.maxRules with
      | some count => ["-l", toString count]
      | none => []) ++ modules.arguments

theorem arguments_of_compiled (compiled : scanner.compiled = true) (target : String)
    (modules : ModuleData) :
    scanner.arguments target modules =
      scanner.options modules ++ "-C" :: (scanner.rules ++ [target]) := by
  have uses : scanner.usesCompiled = true := by rw [usesCompiled, compiled, Bool.true_or]
  rw [arguments, uses, if_pos rfl, List.append_assoc, List.append_assoc, List.singleton_append]
  rfl

theorem tells_one_iff {paths : List String} {scanner : Scanner} (target : String)
    (modules : ModuleData) :
    (∃ only, scanner.options modules ++ "-C" :: (paths ++ [target]) =
        scanner.options modules ++ ["-C", only, target]) ↔ paths.length = 1 := by
  rw [List.length_eq_one_iff]
  refine exists_congr fun only => ?_
  rw [List.append_cancel_left_eq, List.cons_eq_cons, and_iff_right rfl]
  have same : paths ++ [target] = [only] ++ [target] ↔ paths = [only] :=
    List.append_left_inj [target]
  exact same

/-- A scanner that was asked for compiled rules is told that its rules are compiled. They are the
file of the last such call and all files added after it, and so one file exactly if every file
added after it is that file again. -/
theorem compiled_rules_replace (ready : calls.foldlM Scanner.call scanner = .ok final)
    (asked : asksCompiled calls = true) (target : String) (modules : ModuleData) :
    (∃ machine path later, LastCompiled calls machine path later) ∧
    ∀ machine path later, LastCompiled calls machine path later →
      final.arguments target modules =
        final.options modules ++ "-C" ::
          ((later.filterMap Call.added?).foldl addPath [machine.absolute path] ++ [target]) ∧
      ((∃ only, final.arguments target modules =
          final.options modules ++ ["-C", only, target]) ↔
        ∀ other ∈ later.filterMap Call.added?,
          Path.same other (machine.absolute path) = true) := by
  refine ⟨exists_lastCompiled asked, fun machine path later last => ?_⟩
  obtain ⟨compiled, rules⟩ := last.rules_after scanner
  rw [← eq_after ready] at compiled rules
  have told := arguments_of_compiled compiled target modules
  rw [rules] at told
  refine ⟨told, ?_⟩
  rw [told, tells_one_iff, length_foldl_addPath_singleton_iff]

/-- A file that is added again after it was chosen as the compiled rules changes nothing. -/
theorem compiled_rules_replace_again :
    ∃ only, (⟨⟨"/s"⟩, ["/t"], true, false, some 3, defaultLimit⟩ : Scanner).arguments "/x" [] =
      options ⟨⟨"/s"⟩, ["/t"], true, false, some 3, defaultLimit⟩ [] ++ ["-C", only, "/x"] := by
  have ready : [⟨.quiet, .rule "/s"⟩, ⟨.quiet, .compiled "/t"⟩, ⟨.quiet, .maxRules (some 3)⟩,
      ⟨.quiet, .rule "/./t"⟩].foldlM Scanner.call (ofExecutable ⟨"/s"⟩) =
        .ok ⟨⟨"/s"⟩, ["/t"], true, false, some 3, defaultLimit⟩ := by decide +kernel
  have last : LastCompiled _ .quiet "/t" [⟨.quiet, .maxRules (some 3)⟩, ⟨.quiet, .rule "/./t"⟩] :=
    ⟨⟨[⟨.quiet, .rule "/s"⟩], rfl⟩, by simp [Call.compiled?]⟩
  have told := compiled_rules_replace ready last.asksCompiled_eq "/x" []
  exact (told.2 _ _ _ last).2.mpr (by decide +kernel)

/-- A rule file that is added after the compiled rules were chosen is handed over with them. -/
theorem compiled_rules_joined :
    ∃ final, [⟨.quiet, .compiled "/s"⟩, ⟨.quiet, .rule "/t"⟩].foldlM Scanner.call
        (ofExecutable ⟨"/s"⟩) = .ok final ∧
      final.arguments "/x" [] = ["-g", "-m", "-s", "-C", "/s", "/t", "/x"] := by
  have ready : [⟨.quiet, .compiled "/s"⟩, ⟨.quiet, .rule "/t"⟩].foldlM Scanner.call
      (ofExecutable ⟨"/s"⟩) = .ok ⟨⟨"/s"⟩, ["/s", "/t"], true, false, none, defaultLimit⟩ := by
    decide +kernel
  exact ⟨_, ready, rfl⟩

end Scanner

/-! ### Requests -/

/-- A request that names compiled rules and no rule files tells the scanner of one file. -/
theorem Session.scans_one_compiled_file {request : ScanRequest} {path : String}
    (compiled : request.compiled = some path) (alone : request.rules = []) {settings : Settings}
    {machine : Machine} {scanner : Scanner}
    (prepared : scannerFor settings machine request = .ok scanner) (target : String)
    (modules : ModuleData) :
    scanner.arguments target modules =
      scanner.options modules ++ ["-C", machine.absolute path, target] := by
  rw [scannerFor] at prepared
  split at prepared
  · cases prepared
  · rw [compiled, alone] at prepared
    dsimp only at prepared
    split at prepared
    · cases prepared
    · rename_i chosen
      cases prepared
      rw [Scanner.map_existing_eq_ok chosen]
      exact Scanner.arguments_of_compiled rfl target modules

end YaraReport
