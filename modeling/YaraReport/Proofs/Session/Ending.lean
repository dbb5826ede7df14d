/-
This file proves how commands end. A command that gives a tool some seconds
aborts when the tool was started and the clock cannot show the moment that lies
these seconds ahead; every other command ends with success or with a failure that
is reported.

Whatever fails before a tool is started is no matter of time (`Prepares`), so only
the tools' own failures are left to look at. The main statement is `ends_run`.
-/

import YaraReport.Proofs.Deadline
import YaraReport.Session

namespace YaraReport

/-! ### Preparations -/

/-- What a preparation yields, or else its failure, which is not for want of time. -/
def Prepares {Value : Type} (holds : Value → Prop) : Except Failure Value → Prop
  | .ok value => holds value
  | .error failure => failure.isOverdue = false

namespace Prepares

variable {First Second : Type} {yields : First → Prop} {holds : Second → Prop}
  {first : Except Failure First}

theorem map (prepares : Prepares yields first) {change : First → Second}
    (changes : ∀ value, yields value → holds (change value)) :
    Prepares holds (first.map change) := by
  cases first with
  | ok value => exact changes value prepares
  | error failure => exact prepares

theorem cases (prepares : Prepares yields first) :
    (∃ value, first = .ok value ∧ yields value) ∨
      ∃ failure, first = .error failure ∧ failure.isOverdue = false := by
  cases first with
  | ok value => exact .inl ⟨value, rfl, prepares⟩
  | error failure => exact .inr ⟨failure, rfl, prepares⟩

end Prepares

theorem Executable.prepares_at? (machine : Machine) (path : String) :
    Prepares (fun _ => True) (Executable.at? machine path) := by
  unfold Executable.at?
  split
  · rfl
  · rfl
  · split
    · trivial
    · rfl

theorem Executable.prepares_resolve (machine : Machine) (tool : Tool) (wanted : Option String) :
    Prepares (fun _ => True) (Executable.resolve machine tool wanted) := by
  unfold Executable.resolve
  cases wanted with
  | some path => exact prepares_at? machine path
  | none =>
    dsimp only
    split
    · trivial
    · trivial
    · cases Executable.at? machine _ <;> trivial

theorem prepares_existing (machine : Machine) (path : String) :
    Prepares (fun _ => True) (existing machine path) := by
  unfold existing
  split <;> trivial

/-! ### Time limits -/

namespace Scanner

/-- Adding rules keeps the time limit, and so does all that follows. -/
theorem prepares_addRule (machine : Machine) (path : String) (scanner : Scanner) :
    Prepares (fun prepared => prepared.limit = scanner.limit) (scanner.addRule machine path) :=
  (prepares_existing machine path).map fun _ _ => rfl

theorem prepares_useCompiled (machine : Machine) (path : String) (scanner : Scanner) :
    Prepares (fun prepared => prepared.limit = scanner.limit) (scanner.useCompiled machine path) :=
  (prepares_existing machine path).map fun _ _ => rfl

end Scanner

theorem Compiler.prepares_addRule (machine : Machine) (space path : String)
    (compiler : Compiler) :
    Prepares (fun prepared => prepared.limit = compiler.limit)
      (compiler.addRule machine space path) := by
  unfold Compiler.addRule
  split <;> rfl

namespace Session

theorem prepares_addRules (machine : Machine) (scanner : Scanner) (paths : List String) :
    Prepares (fun prepared => prepared.limit = scanner.limit) (addRules machine scanner paths) := by
  induction paths generalizing scanner with
  | nil => rfl
  | cons path paths inductionHypothesis =>
    unfold addRules
    rcases (scanner.prepares_addRule machine path).cases with
      ⟨next, prepared, same⟩ | ⟨failure, refused, inTime⟩
    · rw [prepared, ← same]
      exact inductionHypothesis next
    · rw [refused]
      exact inTime

theorem prepares_scannerFor (settings : Settings) (machine : Machine) (request : ScanRequest) :
    Prepares (fun scanner => scanner.limit = settings.limit)
      (scannerFor settings machine request) := by
  rw [scannerFor]
  rcases (Executable.prepares_resolve machine .scanner
    (request.scanner <|> settings.scanner)).cases with
    ⟨executable, resolved, -⟩ | ⟨failure, refused, inTime⟩
  · rw [resolved]
    dsimp only
    cases request.compiled with
    | none => exact prepares_addRules machine _ request.rules
    | some path =>
      dsimp only
      rcases (Scanner.prepares_useCompiled machine path _).cases with
        ⟨next, prepared, same⟩ | ⟨failure, refused, inTime⟩
      · rw [prepared]
        have limit : next.limit = settings.limit := same
        rw [← limit]
        exact prepares_addRules machine next request.rules
      · rw [refused]
        exact inTime
  · rw [refused]
    exact inTime

theorem prepares_addSpecs (machine : Machine) (compiler : Compiler) (specs : List String) :
    Prepares (fun prepared => prepared.limit = compiler.limit)
      (addSpecs machine compiler specs) := by
  induction specs generalizing compiler with
  | nil => rfl
  | cons spec specs inductionHypothesis =>
    unfold addSpecs
    dsimp only
    rcases (compiler.prepares_addRule machine (Compiler.splitArgument spec).1
      (Compiler.splitArgument spec).2).cases with
      ⟨next, prepared, same⟩ | ⟨failure, refused, inTime⟩
    · rw [prepared, ← same]
      exact inductionHypothesis next
    · rw [refused]
      exact inTime

theorem prepares_compilerFor (settings : Settings) (machine : Machine)
    (request : CompileRequest) :
    Prepares (fun compiler => compiler.limit = settings.limit)
      (compilerFor settings machine request) := by
  rw [compilerFor]
  rcases (Executable.prepares_resolve machine .compiler
    (request.compiler <|> settings.compiler)).cases with
    ⟨executable, resolved, -⟩ | ⟨failure, refused, inTime⟩
  · rw [resolved]
    exact prepares_addSpecs machine _ request.rules
  · rw [refused]
    exact inTime

/-! ### Commands -/

/-- How a command ends for which a deadline may be beyond what the clock can show: it aborts if that
is so and a tool was started, and otherwise it ends with success or with a failure. -/
inductive Ends (beyond : Prop) (result : Result) : Prop where
  | aborted (exit : result.exit = .abort) (started : result.launches ≠ []) (far : beyond)
  | reported (exit : result.exit = .success ∨ result.exit = .failure)
      (near : result.launches ≠ [] → ¬ beyond)

theorem Ends.after {beyond : Prop} {result : Result} (ends : Ends beyond result)
    (printed : Printed) : Ends beyond (result.after printed) := by
  cases ends with
  | aborted exit started far => exact .aborted exit started far
  | reported exit near => exact .reported exit near

variable {context : Context} {machine : Machine} {launches : List Launch} {failure : Failure}
  {beyond : Prop}

theorem ends_fail (other : failure ≠ .deadlineUnreachable) (near : launches ≠ [] → ¬ beyond) :
    Ends beyond (fail context machine launches failure) := by
  rw [fail, if_neg other]
  exact .reported (.inr rfl) near

theorem ne_deadlineUnreachable (inTime : failure.isOverdue = false) :
    failure ≠ .deadlineUnreachable := by
  rintro rfl
  cases inTime

/-- Failing before a tool is started ends a command with a failure. -/
theorem ends_fail_early (inTime : failure.isOverdue = false) :
    Ends beyond (fail context machine [] failure) :=
  ends_fail (ne_deadlineUnreachable inTime) fun started => absurd rfl started

theorem exit_ofSuccess (success : Bool) :
    Exit.ofSuccess success = .success ∨ Exit.ofSuccess success = .failure := by
  cases success
  · exact .inr rfl
  · exact .inl rfl

theorem code_ofSuccess_eq_zero_iff (success : Bool) :
    (Exit.ofSuccess success).code = 0 ↔ success = true := by
  cases success <;> decide

theorem failure?_eq_some_iff (scanned : Scanned) (failure : Failure) :
    scanned.failure? = some failure ↔ scanned.finished.outcome = .error failure := by
  unfold Scanned.failure?
  split
  · rename_i outcome
    rw [outcome]
    exact iff_of_false (fun same => by cases same) fun same => by cases same
  · rename_i other outcome
    rw [outcome]
    exact ⟨fun same => congrArg Except.error (Option.some.inj same),
      fun same => congrArg some (Except.error.inj same)⟩

/-- Some scan fails for want of a deadline if some scanner was started and the clock cannot show the
deadline. -/
theorem any_deadlineUnreachable_iff (scanner : Scanner) (modules : ModuleData) (machine : Machine)
    (targets : List String) :
    ((scanAll scanner modules machine targets).any fun scanned =>
        scanned.failure? = some .deadlineUnreachable) = true ↔
      ((scanAll scanner modules machine targets).filterMap fun scanned =>
        scanned.finished.launch) ≠ [] ∧ Child.isReachable machine.clock scanner.limit = false := by
  rw [scanAll, List.any_map, List.any_eq_true, List.filterMap_map]
  constructor
  · rintro ⟨target, member, failed⟩
    have failed := (failure?_eq_some_iff _ _).mp (of_decide_eq_true failed)
    obtain ⟨started, beyond⟩ :=
      (scanner.scanFile_deadlineUnreachable_iff machine target modules).mp failed
    obtain ⟨launch, launched⟩ := Option.isSome_iff_exists.mp started
    exact ⟨List.ne_nil_of_mem (List.mem_filterMap.mpr ⟨target, member, launched⟩), beyond⟩
  · rintro ⟨nonempty, beyond⟩
    obtain ⟨launch, found⟩ := List.exists_mem_of_ne_nil _ nonempty
    obtain ⟨target, member, launched⟩ := List.mem_filterMap.mp found
    have started := Option.isSome_iff_exists.mpr ⟨launch, launched⟩
    have failed :=
      (scanner.scanFile_deadlineUnreachable_iff machine target modules).mpr ⟨started, beyond⟩
    exact ⟨target, member, decide_eq_true ((failure?_eq_some_iff _ _).mpr failed)⟩

theorem ends_concludeScans (context : Context) (after machine : Machine) (scanner : Scanner)
    (modules : ModuleData) (targets : List String) :
    Ends (Child.isReachable machine.clock scanner.limit = false)
      (concludeScans context after (scanAll scanner modules machine targets)) := by
  have unreachable := any_deadlineUnreachable_iff scanner modules machine targets
  unfold concludeScans
  dsimp only
  split
  · rename_i some
    obtain ⟨started, far⟩ := unreachable.mp some
    exact .aborted rfl started far
  · rename_i none
    exact .reported (exit_ofSuccess _) fun started far => none (unreachable.mpr ⟨started, far⟩)

theorem ends_scan (context : Context) (machine : Machine) (request : ScanRequest) :
    Ends (Child.isReachable machine.clock
      (context.settings.withFlags request.seconds request.json false).limit = false)
      (scan context machine request) := by
  unfold scan
  dsimp only
  rcases (prepares_scannerFor (context.settings.withFlags request.seconds request.json false)
    machine request).cases with ⟨scanner, prepared, limit⟩ | ⟨failure, refused, inTime⟩
  · rw [prepared, ← limit]
    dsimp only
    split
    · exact ends_fail_early rfl
    · exact ends_concludeScans _ _ machine scanner _ request.targets
  · rw [refused]
    exact ends_fail_early inTime

theorem ends_concludeCompilation (context : Context) (destination : String)
    {finished : Compiler.Finished}
    (unreachable : finished.outcome = .error .deadlineUnreachable ↔
      finished.launch.isSome = true ∧ beyond) :
    Ends beyond (concludeCompilation context destination finished) := by
  have started : finished.launch.toList ≠ [] ↔ finished.launch.isSome = true := by
    cases finished.launch with
    | none => exact iff_of_false (fun other => other rfl) Bool.noConfusion
    | some launch => exact iff_of_true (List.cons_ne_nil _ _) rfl
  rw [← started] at unreachable
  -- Only this failure aborts; the others are told apart after it.
  by_cases lost : finished.outcome = .error .deadlineUnreachable
  · obtain ⟨launched, far⟩ := unreachable.mp lost
    rw [concludeCompilation, lost]
    exact .aborted rfl launched far
  have near (launched : finished.launch.toList ≠ []) : ¬ beyond := fun far =>
    lost (unreachable.mpr ⟨launched, far⟩)
  unfold concludeCompilation
  dsimp only
  split
  · rename_i same
    exact absurd same lost
  · rename_i failure other same
    exact (ends_fail other near).after _
  · refine Ends.after ?_ _
    split
    · rename_i failure machine failed
      obtain ⟨error, rfl⟩ := Compiler.Compiled.error_of_persist (congrArg Prod.fst failed)
      exact ends_fail Failure.noConfusion near
    · exact .reported (.inl rfl) near

theorem ends_compile (context : Context) (machine : Machine) (request : CompileRequest) :
    Ends (Child.isReachable machine.clock
      (context.settings.withFlags request.seconds request.json false).limit = false)
      (compile context machine request) := by
  unfold compile
  dsimp only
  rcases (prepares_compilerFor (context.settings.withFlags request.seconds request.json false)
    machine request).cases with ⟨compiler, prepared, limit⟩ | ⟨failure, refused, inTime⟩
  · rw [prepared, ← limit]
    exact ends_concludeCompilation _ _ (compiler.compile_deadlineUnreachable_iff machine)
  · rw [refused]
    exact ends_fail_early inTime

theorem prepares_readInput (machine : Machine) (stdin : List UInt8) (request : CaptureRequest) :
    Prepares (fun _ => True) (readInput machine stdin request) := by
  unfold readInput
  split
  · trivial
  · split
    · rfl
    · trivial

/-- Reading a capture starts nothing, and so it never aborts. -/
theorem ends_readOutput (near : ¬ beyond) (context : Context) (machine : Machine)
    (stdin : List UInt8) (request : CaptureRequest) :
    Ends beyond (readOutput context machine stdin request) := by
  rw [readOutput]
  rcases (prepares_readInput machine stdin request).cases with
    ⟨input, read, -⟩ | ⟨failure, refused, inTime⟩
  · rw [read]
    dsimp only
    split
    · exact .reported (.inr rfl) fun _ => near
    · exact .reported (.inl rfl) fun _ => near
  · rw [refused]
    exact ends_fail_early inTime

theorem ends_readDiagnostics (near : ¬ beyond) (context : Context) (machine : Machine)
    (stdin : List UInt8) (request : CaptureRequest) :
    Ends beyond (readDiagnostics context machine stdin request) := by
  rw [readDiagnostics]
  rcases (prepares_readInput machine stdin request).cases with
    ⟨input, read, -⟩ | ⟨failure, refused, inTime⟩
  · rw [read]
    exact .reported (exit_ofSuccess _) fun _ => near
  · rw [refused]
    exact ends_fail_early inTime

/-! ### Sessions -/

/-- The seconds that a command gives the tool it runs, if it runs one: those of its own switch, or
else those of the settings. -/
def timeout? (settings : Settings) : Command → Option Nat
  | .scan request => some (request.seconds.getD settings.seconds)
  | .compile request => some (request.seconds.getD settings.seconds)
  | .readOutput _ | .readDiagnostics _ => none

/-- The settings that a session finds. -/
def found (reader : Toml.Reader) (machine : Machine) (terminal : Bool) : Settings :=
  (loadSettings reader machine (environmentStyled machine terminal)).1

/-- What a command runs in. -/
def contextOf (reader : Toml.Reader) (machine : Machine) (terminal noColor : Bool) : Context :=
  ⟨(found reader machine terminal).withFlags none false noColor,
    environmentStyled machine terminal &&
      ((found reader machine terminal).withFlags none false noColor).colored⟩

variable {readers : Readers} {arguments : List String} {invocation : Invocation}

theorem run_of_read (asked : readers.arguments arguments = .ok invocation) (machine : Machine)
    (terminal : Bool) (stdin : List UInt8) :
    run readers machine terminal arguments stdin =
      (runCommand (contextOf readers.settings machine terminal invocation.noColor) machine stdin
        invocation.command).after
        (loadSettings readers.settings machine (environmentStyled machine terminal)).2 := by
  rw [run, asked]
  rfl

/-- Whether a clock's reading and a time limit add up to a moment that the clock cannot show, in
whole seconds. -/
def Overruns (machine : Machine) (seconds : Option Nat) : Prop :=
  ∃ limit ∈ seconds, 0x8000000000000000 ≤ machine.clock / Text.second + limit

theorem not_overruns_none (machine : Machine) : ¬ Overruns machine none := by
  rintro ⟨limit, member, -⟩
  cases member

theorem overruns_iff (machine : Machine) (settings : Settings) :
    Overruns machine (some settings.seconds) ↔
      Child.isReachable machine.clock settings.limit = false := by
  rw [← Bool.not_eq_true, Settings.limit, Child.isReachable_seconds, Nat.not_lt]
  constructor
  · rintro ⟨limit, same, far⟩
    rwa [Option.some.inj same]
  · exact fun far => ⟨_, rfl, far⟩

/-- A command aborts if it was given some seconds for a tool, the tool was started, and the clock
cannot show the moment that lies these seconds ahead. Every other command ends with success or with
a failure. -/
theorem ends_run (asked : readers.arguments arguments = .ok invocation) (machine : Machine)
    (terminal : Bool) (stdin : List UInt8) :
    Ends (Overruns machine (timeout? (found readers.settings machine terminal) invocation.command))
      (run readers machine terminal arguments stdin) := by
  rw [run_of_read asked]
  refine Ends.after ?_ _
  obtain ⟨command, noColor⟩ := invocation
  cases command with
  | scan request =>
    have ends := ends_scan (contextOf readers.settings machine terminal noColor) machine request
    rw [← overruns_iff] at ends
    exact ends
  | compile request =>
    have ends := ends_compile (contextOf readers.settings machine terminal noColor) machine request
    rw [← overruns_iff] at ends
    exact ends
  | readOutput request => exact ends_readOutput (not_overruns_none machine) _ machine stdin request
  | readDiagnostics request =>
    exact ends_readDiagnostics (not_overruns_none machine) _ machine stdin request

/-- A machine whose scanner prints nothing and succeeds at once. -/
def atOnce : Machine := .running (.printing 0 [] [] (.exits (.code 0)))

/-- The arguments of a scan that is given some seconds. -/
def scanWithin (seconds : String) : List String :=
  ["scan", "--yara", "/s", "-r", "/t", "--timeout", seconds, "/t"]

/-- The longest time that a clock at its start can show is granted. -/
theorem ends_run_within :
    Ends (Overruns atOnce (some 9223372036854775807))
        (run .standard atOnce false (scanWithin "9223372036854775807") []) ∧
      (run .standard atOnce false (scanWithin "9223372036854775807") []).exit = .success := by
  have asked : Readers.standard.arguments (scanWithin "9223372036854775807") =
      .ok ⟨.scan ⟨["/t"], ["/t"], none, [], false, none, some 9223372036854775807, false,
        some "/s"⟩, false⟩ := by decide +kernel
  exact ⟨ends_run asked atOnce false [], by decide +kernel⟩

/-- The largest time limit that is accepted aborts a scan whose scanner would have succeeded at
once, and does so after the scanner was started. -/
theorem aborts_at_largest_timeout :
    (run .standard atOnce false (scanWithin "18446744073709551615") []).exit.code = 101 ∧
      (run .standard atOnce false (scanWithin "18446744073709551615") []).launches.length = 1 := by
  decide +kernel

end Session

end YaraReport
