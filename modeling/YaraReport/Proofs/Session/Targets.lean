/-
This file proves that the targets of one scan have nothing to do with each other,
and that each is all or nothing. What the program prints on its output stream for
several targets is what it prints for each of them alone, in their order; a target
whose scan fails in any way prints nothing there, whatever was delivered before
the failure. The same holds of the rules of a capture that is read: all of them are
printed, or none.

A scan that is accepted settles the output stream and the exit code at once
(`Accepts.output_run`, `Accepts.exit_run`); everything else is read off these two.
-/

import YaraReport.Proofs.Session.Ending

namespace YaraReport.Session

/-! ### What is printed -/

theorem text_singleton (row : String) : text [row] = row ++ "\n" := by
  rw [text, List.map_singleton, String.join_cons, String.join_nil, String.append_empty]

theorem text_flatMap {Item : Type} (items : List Item) (rows : Item → List String) :
    text (items.flatMap rows) = String.join (items.map fun item => text (rows item)) := by
  induction items with
  | nil => rfl
  | cons item items inductionHypothesis =>
    unfold text at inductionHypothesis ⊢
    rw [List.flatMap_cons, List.map_append, String.join_append, inductionHypothesis, List.map_cons,
      String.join_cons]

/-- What is printed on the output stream for one rule after the other is their reports. -/
theorem text_reportLines (styled : Bool) (target : Option String) (rules : List Rule) :
    text (rules.flatMap (Rule.reportLines styled target)) =
      String.join (rules.map (Rule.report styled target)) :=
  text_flatMap rules (Rule.reportLines styled target)

theorem output_foldr (parts : List Printed) (last : Printed) :
    (parts.foldr (· ++ ·) last).output = parts.flatMap Printed.output ++ last.output := by
  induction parts with
  | nil => rfl
  | cons part parts inductionHypothesis =>
    show part.output ++ (parts.foldr (· ++ ·) last).output = _
    rw [inductionHypothesis, List.flatMap_cons, List.append_assoc]

/-- Loading the settings prints nothing on the output stream. -/
theorem output_loadSettings (reader : Toml.Reader) (machine : Machine) (styled : Bool) :
    (loadSettings reader machine styled).2.output = [] := by
  unfold loadSettings
  split <;> rfl

/-! ### Scans of targets -/

/-- The scans of some targets, in their order, report on those that succeed: one report on each of
these, and none on the others. -/
inductive Reports (scanner : Scanner) (machine : Machine) (modules : ModuleData) :
    List String → List TargetReport → Prop where
  | none : Reports scanner machine modules [] []
  | succeeds {targets : List String} {reports : List TargetReport} (target : String)
      (summary : Scanner.Summary)
      (outcome : (scanner.scanFile machine target modules).outcome = .ok summary)
      (later : Reports scanner machine modules targets reports) :
      Reports scanner machine modules (target :: targets)
        (⟨target, (scanner.scanFile machine target modules).delivered, summary.skipped,
          summary.warnings⟩ :: reports)
  | fails {targets : List String} {reports : List TargetReport} (target : String)
      (failure : Failure)
      (outcome : (scanner.scanFile machine target modules).outcome = .error failure)
      (later : Reports scanner machine modules targets reports) :
      Reports scanner machine modules (target :: targets) reports

section Scans

variable {scanner : Scanner} {machine : Machine} {modules : ModuleData}

theorem reports_scanAll (targets : List String) :
    Reports scanner machine modules targets
      ((scanAll scanner modules machine targets).filterMap Scanned.report?) := by
  induction targets with
  | nil => exact .none
  | cons target targets inductionHypothesis =>
    rw [scanAll, List.map_cons, List.filterMap_cons]
    unfold Scanned.report?
    cases outcome : (scanner.scanFile machine target modules).outcome with
    | ok summary => exact .succeeds target summary outcome inductionHypothesis
    | error failure => exact .fails target failure outcome inductionHypothesis

/-- In text, the scan of a target that succeeds prints its rules. -/
theorem output_printScanned_ok {context : Context} (plain : context.settings.json = false)
    {target : String} {summary : Scanner.Summary}
    (outcome : (scanner.scanFile machine target modules).outcome = .ok summary) :
    (printScanned context ⟨target, scanner.scanFile machine target modules⟩).output =
      (scanner.scanFile machine target modules).delivered.flatMap
        (Rule.reportLines context.styled (some target)) := by
  unfold printScanned Scanned.failure? Scanned.report?
  dsimp only
  rw [outcome, plain]
  rfl

/-- The scan of a target that fails prints nothing on the output stream. -/
theorem output_printScanned_error (context : Context) {target : String} {failure : Failure}
    (outcome : (scanner.scanFile machine target modules).outcome = .error failure) :
    (printScanned context ⟨target, scanner.scanFile machine target modules⟩).output = [] := by
  unfold printScanned Scanned.failure? Scanned.report?
  dsimp only
  rw [outcome]
  rfl

/-- In JSON the scan of a target prints nothing by itself. -/
theorem output_printScanned_json {context : Context} (json : context.settings.json = true)
    (scanned : Scanned) : (printScanned context scanned).output = [] := by
  unfold printScanned
  split
  · rfl
  · rw [json]
    rfl
  · rfl

theorem isNone_failure? (target : String) :
    (Scanned.mk target (scanner.scanFile machine target modules)).failure?.isNone =
      (scanner.scanFile machine target modules).outcome.isOk := by
  unfold Scanned.failure?
  dsimp only
  cases (scanner.scanFile machine target modules).outcome <;> rfl

end Scans

/-! ### Scans that are accepted -/

/-- What the scan of targets runs in. -/
def scanContext (reader : Toml.Reader) (machine : Machine) (terminal noColor : Bool)
    (request : ScanRequest) : Context :=
  { contextOf reader machine terminal noColor with
    settings := (contextOf reader machine terminal noColor).settings.withFlags request.seconds
      request.json false }

/-- The arguments ask for a scan, and the executable, the rules and the options make up a
scanner. -/
structure Ready (readers : Readers) (machine : Machine) (terminal noColor : Bool)
    (arguments : List String) (request : ScanRequest) (scanner : Scanner) : Prop where
  asked : readers.arguments arguments = .ok ⟨.scan request, noColor⟩
  prepared : scannerFor (scanContext readers.settings machine terminal noColor request).settings
    machine request = .ok scanner

/-- A scan is accepted: there is a scanner, there are as many threads as the settings ask for, and
the clock can show the deadline. -/
structure Accepts (readers : Readers) (machine : Machine) (terminal noColor : Bool)
    (arguments : List String) (request : ScanRequest) (scanner : Scanner) : Prop
    extends Ready readers machine terminal noColor arguments request scanner where
  pooled : machine.poolRefusal?
    (scanContext readers.settings machine terminal noColor request).settings.threads = none
  reachable : Child.isReachable machine.clock scanner.limit = true

section Accepted

variable {readers : Readers} {machine : Machine} {terminal noColor : Bool}
  {arguments : List String} {request : ScanRequest} {scanner : Scanner}

/-- A scan that is accepted comes to what the scans of its targets come to. -/
theorem Accepts.run_eq (accepts : Accepts readers machine terminal noColor arguments request
    scanner) (stdin : List UInt8) :
    run readers machine terminal arguments stdin =
      (concludeScans (scanContext readers.settings machine terminal noColor request)
        (afterScans scanner (ModuleData.ofPairs request.modules) machine request.targets)
        (scanAll scanner (ModuleData.ofPairs request.modules) machine request.targets)).after
        (loadSettings readers.settings machine (environmentStyled machine terminal)).2 := by
  have prepared := accepts.prepared
  have pooled := accepts.pooled
  rw [run_of_read accepts.asked, runCommand]
  unfold scan
  unfold scanContext at prepared pooled ⊢
  dsimp only at prepared pooled ⊢
  rw [prepared]
  dsimp only
  rw [pooled]

/-- A scan that is refused its threads fails before any target is looked at. -/
theorem Ready.refused (ready : Ready readers machine terminal noColor arguments request scanner)
    {error : SystemError}
    (refused : machine.poolRefusal?
      (scanContext readers.settings machine terminal noColor request).settings.threads =
        some error) (stdin : List UInt8) :
    (run readers machine terminal arguments stdin).printed.output = [] ∧
      (run readers machine terminal arguments stdin).exit = .failure := by
  have prepared := ready.prepared
  have fails : run readers machine terminal arguments stdin =
      (fail (scanContext readers.settings machine terminal noColor request) machine []
        (.poolRefused error)).after
        (loadSettings readers.settings machine (environmentStyled machine terminal)).2 := by
    rw [run_of_read ready.asked, runCommand]
    unfold scan
    unfold scanContext at prepared refused ⊢
    dsimp only at prepared refused ⊢
    rw [prepared]
    dsimp only
    rw [refused]
  rw [fails, fail, if_neg Failure.noConfusion]
  exact ⟨List.append_eq_nil_iff.mpr ⟨output_loadSettings _ _ _, rfl⟩, rfl⟩

theorem Accepts.not_any
    (accepts : Accepts readers machine terminal noColor arguments request scanner)
    (modules : ModuleData) :
    ¬ ((scanAll scanner modules machine request.targets).any fun scanned =>
      scanned.failure? = some .deadlineUnreachable) = true := by
  rw [any_deadlineUnreachable_iff, accepts.reachable]
  exact fun lost => Bool.noConfusion lost.2

/-- The output stream of a scan that is accepted: what each target prints, then the reports on all
of them where they are asked for in JSON. -/
theorem Accepts.output_run
    (accepts : Accepts readers machine terminal noColor arguments request scanner)
    (stdin : List UInt8) :
    (run readers machine terminal arguments stdin).printed.output =
      (request.targets.flatMap fun target =>
        (printScanned (scanContext readers.settings machine terminal noColor request)
          ⟨target, scanner.scanFile machine target (ModuleData.ofPairs request.modules)⟩).output) ++
      (printReports (scanContext readers.settings machine terminal noColor request)
        (scanAll scanner (ModuleData.ofPairs request.modules) machine request.targets)).output := by
  rw [accepts.run_eq, concludeScans, if_neg (accepts.not_any _)]
  show (loadSettings readers.settings machine (environmentStyled machine terminal)).2.output ++ _ =
    _
  rw [output_loadSettings, List.nil_append, output_foldr, scanAll, List.map_map, List.flatMap_map]
  rfl

/-- The exit code of a scan that is accepted says whether every target succeeded. -/
theorem Accepts.exit_run
    (accepts : Accepts readers machine terminal noColor arguments request scanner)
    (stdin : List UInt8) :
    (run readers machine terminal arguments stdin).exit =
      .ofSuccess (request.targets.all fun target =>
        (scanner.scanFile machine target (ModuleData.ofPairs request.modules)).outcome.isOk) := by
  rw [accepts.run_eq, concludeScans, if_neg (accepts.not_any _), scanAll, List.all_map]
  show Exit.ofSuccess (request.targets.all _) = _
  congr 2
  funext target
  exact isNone_failure? target

theorem Accepts.code_run_eq_zero_iff
    (accepts : Accepts readers machine terminal noColor arguments request scanner)
    (stdin : List UInt8) :
    (run readers machine terminal arguments stdin).exit.code = 0 ↔
      ∀ target ∈ request.targets, ∃ summary,
        (scanner.scanFile machine target (ModuleData.ofPairs request.modules)).outcome =
          .ok summary := by
  have isOk (outcome : Except Failure Scanner.Summary) :
      outcome.isOk = true ↔ ∃ summary, outcome = .ok summary := by
    cases outcome with
    | ok summary => exact iff_of_true rfl ⟨summary, rfl⟩
    | error failure => exact iff_of_false Bool.noConfusion fun ⟨_, same⟩ => by cases same
  rw [accepts.exit_run, code_ofSuccess_eq_zero_iff, List.all_eq_true]
  exact forall₂_congr fun target _ => isOk _

/-- The scan of one of the targets alone is accepted as the scan of all of them is. -/
theorem Accepts.alone (accepts : Accepts readers machine terminal noColor arguments request scanner)
    {target : String} {single : List String}
    (asked : readers.arguments single =
      .ok ⟨.scan { request with targets := [target] }, noColor⟩) :
    Accepts readers machine terminal noColor single { request with targets := [target] } scanner :=
  ⟨⟨asked, accepts.prepared⟩, accepts.pooled, accepts.reachable⟩

/-- In text the output stream of a scan is put together from what its targets print. -/
theorem Accepts.output_text
    (accepts : Accepts readers machine terminal noColor arguments request scanner)
    (plain : (scanContext readers.settings machine terminal noColor request).settings.json = false)
    (stdin : List UInt8) :
    (run readers machine terminal arguments stdin).printed.output =
      request.targets.flatMap fun target =>
        (printScanned (scanContext readers.settings machine terminal noColor request)
          ⟨target,
            scanner.scanFile machine target (ModuleData.ofPairs request.modules)⟩).output := by
  rw [accepts.output_run, printReports, plain]
  exact List.append_nil _

/-- In JSON the output stream of a scan is one list of reports. -/
theorem Accepts.output_json
    (accepts : Accepts readers machine terminal noColor arguments request scanner)
    (json : (scanContext readers.settings machine terminal noColor request).settings.json = true)
    (stdin : List UInt8) :
    ∃ reports,
      Reports scanner machine (ModuleData.ofPairs request.modules) request.targets reports ∧
      (run readers machine terminal arguments stdin).printed.output =
        [(Json.list (reports.map TargetReport.json)).indented] := by
  refine ⟨_, reports_scanAll request.targets, ?_⟩
  have nothing : (request.targets.flatMap fun target =>
      (printScanned (scanContext readers.settings machine terminal noColor request)
        ⟨target, scanner.scanFile machine target
          (ModuleData.ofPairs request.modules)⟩).output) = [] :=
    List.flatMap_eq_nil_iff.mpr fun target _ => output_printScanned_json json _
  rw [accepts.output_run, nothing, printReports, if_pos json]
  rfl

end Accepted

/-- What a scan of several targets comes to, in terms of the scans of each of them alone. -/
structure Independent (scanner : Scanner) (machine : Machine) (modules : ModuleData)
    (context : Context) (targets : List String) (alone : String → Result) (whole : Result) :
    Prop where
  /-- In text the output is put together from the outputs for each target. -/
  joins : context.settings.json = false → text whole.printed.output =
    String.join (targets.map fun target => text (alone target).printed.output)
  /-- A target whose scan succeeds has all its rules printed. -/
  prints : context.settings.json = false → ∀ target ∈ targets, ∀ summary,
    (scanner.scanFile machine target modules).outcome = .ok summary →
      text (alone target).printed.output =
        String.join ((scanner.scanFile machine target modules).delivered.map
          (Rule.report context.styled (some target)))
  /-- A target whose scan fails has nothing printed, whatever was delivered before. -/
  withholds : context.settings.json = false → ∀ target ∈ targets, ∀ failure,
    (scanner.scanFile machine target modules).outcome = .error failure →
      text (alone target).printed.output = ""
  /-- In JSON the output is one list, with one report for each target whose scan succeeds. -/
  lists : context.settings.json = true → ∃ reports,
    Reports scanner machine modules targets reports ∧
      whole.printed.output = [(Json.list (reports.map TargetReport.json)).indented]
  /-- The exit code says whether all scans succeed. -/
  succeeds : whole.exit.code = 0 ↔ ∀ target ∈ targets, ∃ summary,
    (scanner.scanFile machine target modules).outcome = .ok summary
  fails : whole.exit.code = 0 ∨ whole.exit.code = 1

theorem Accepts.independent {machine : Machine} {terminal noColor : Bool}
    {arguments : List String} {request : ScanRequest} {scanner : Scanner}
    (accepts : Accepts readers machine terminal noColor arguments request scanner)
    {alone : String → List String}
    (asked : ∀ target ∈ request.targets, readers.arguments (alone target) =
      .ok ⟨.scan { request with targets := [target] }, noColor⟩) (stdin : List UInt8) :
    Independent scanner machine (ModuleData.ofPairs request.modules)
      (scanContext readers.settings machine terminal noColor request) request.targets
      (fun target => run readers machine terminal (alone target) stdin)
      (run readers machine terminal arguments stdin) := by
  have own
      (plain : (scanContext readers.settings machine terminal noColor request).settings.json =
        false)
      {target : String} (member : target ∈ request.targets) :
      (run readers machine terminal (alone target) stdin).printed.output =
        (printScanned (scanContext readers.settings machine terminal noColor request)
          ⟨target, scanner.scanFile machine target
            (ModuleData.ofPairs request.modules)⟩).output := by
    rw [(accepts.alone (asked target member)).output_text plain]
    exact List.flatMap_singleton _ _
  refine ⟨fun plain => ?_, fun plain target member summary outcome => ?_,
    fun plain target member failure outcome => ?_, fun json => accepts.output_json json stdin,
    accepts.code_run_eq_zero_iff stdin, ?_⟩
  · rw [accepts.output_text plain, text_flatMap]
    refine congrArg String.join (List.map_congr_left fun target member => ?_)
    rw [own plain member]
  · rw [own plain member, output_printScanned_ok plain outcome, text_reportLines]
  · rw [own plain member, output_printScanned_error _ outcome]
    rfl
  · rw [accepts.exit_run]
    cases request.targets.all _
    · exact .inr rfl
    · exact .inl rfl

/-! ### Captures -/

/-- What reading a capture prints on the output stream: all of its rules, or nothing. -/
inductive PrintsAll (styled json : Bool) (input : Except Failure Input) (result : Result) :
    Prop where
  | unreadable (failure : Failure) (missing : input = .error failure)
      (output : text result.printed.output = "") (code : result.exit.code = 1)
  | broken (given : Input) (violation : Violation) (found : input = .ok given)
      (captured : Capture.ofText given.text = .error violation)
      (output : text result.printed.output = "") (code : result.exit.code = 1)
  | whole (given : Input) (capture : Capture) (found : input = .ok given)
      (captured : Capture.ofText given.text = .ok capture)
      (output : text result.printed.output =
        if json then (Json.list (capture.rules.map Rule.json)).indented ++ "\n"
        else String.join (capture.rules.map (Rule.report styled none)))
      (code : result.exit.code = 0)

theorem printsAll_readOutput (context : Context) (machine : Machine) (stdin : List UInt8)
    (request : CaptureRequest) :
    PrintsAll context.styled (request.json || context.settings.json)
      (readInput machine stdin request) (readOutput context machine stdin request) := by
  rw [readOutput]
  rcases (prepares_readInput machine stdin request).cases with
    ⟨given, read, -⟩ | ⟨failure, refused, inTime⟩
  · rw [read]
    dsimp only
    split
    · rename_i violation captured
      exact .broken given violation rfl captured rfl rfl
    · rename_i capture captured
      refine .whole given capture rfl captured ?_ rfl
      unfold printCapture
      cases request.json || context.settings.json with
      | true => exact text_singleton _
      | false => exact text_reportLines context.styled none capture.rules
  · rw [refused]
    dsimp only
    rw [fail, if_neg (ne_deadlineUnreachable inTime)]
    exact .unreadable failure rfl rfl rfl

theorem PrintsAll.after {styled json : Bool} {input : Except Failure Input} {result : Result}
    (prints : PrintsAll styled json input result) {printed : Printed}
    (silent : printed.output = []) : PrintsAll styled json input (result.after printed) := by
  have same : (result.after printed).printed.output = result.printed.output := by
    show printed.output ++ result.printed.output = _
    rw [silent, List.nil_append]
  cases prints with
  | unreadable failure missing output code =>
    exact .unreadable failure missing (same ▸ output) code
  | broken given violation found captured output code =>
    exact .broken given violation found captured (same ▸ output) code
  | whole given capture found captured output code =>
    exact .whole given capture found captured (same ▸ output) code

/-! ### All or nothing -/

/-- The targets of a scan that is accepted are independent of each other, each of them all or
nothing, and so are the captures that are read. A scan that is refused its threads prints nothing
on the output stream, whatever its targets, and fails. -/
theorem outputs_all_or_nothing :
    (∀ (readers : Readers) (machine : Machine) (terminal noColor : Bool) (arguments : List String)
      (request : ScanRequest) (scanner : Scanner) (alone : String → List String)
      (stdin : List UInt8),
      Accepts readers machine terminal noColor arguments request scanner →
      (∀ target ∈ request.targets, readers.arguments (alone target) =
        .ok ⟨.scan { request with targets := [target] }, noColor⟩) →
      Independent scanner machine (ModuleData.ofPairs request.modules)
        (scanContext readers.settings machine terminal noColor request) request.targets
        (fun target => run readers machine terminal (alone target) stdin)
        (run readers machine terminal arguments stdin)) ∧
    (∀ (readers : Readers) (machine : Machine) (terminal noColor : Bool) (arguments : List String)
      (request : CaptureRequest) (stdin : List UInt8),
      readers.arguments arguments = .ok ⟨.readOutput request, noColor⟩ →
      PrintsAll (contextOf readers.settings machine terminal noColor).styled
        (request.json || (contextOf readers.settings machine terminal noColor).settings.json)
        (readInput machine stdin request) (run readers machine terminal arguments stdin)) ∧
    ∀ (readers : Readers) (machine : Machine) (terminal noColor : Bool) (arguments : List String)
      (request : ScanRequest) (scanner : Scanner) (error : SystemError) (stdin : List UInt8),
      Ready readers machine terminal noColor arguments request scanner →
      machine.poolRefusal?
          (scanContext readers.settings machine terminal noColor request).settings.threads =
        some error →
      (run readers machine terminal arguments stdin).printed.output = [] ∧
        (run readers machine terminal arguments stdin).exit = .failure := by
  refine ⟨fun _ _ _ _ _ _ _ _ stdin accepts asked => accepts.independent asked stdin,
    fun readers machine terminal noColor arguments request stdin asked => ?_,
    fun _ _ _ _ _ _ _ _ stdin ready refused => ready.refused refused stdin⟩
  rw [run_of_read asked]
  exact (printsAll_readOutput _ machine stdin request).after (output_loadSettings _ machine _)

/-- A machine whose scanner finds one rule in every file that exists. -/
def finding : Machine :=
  .running (.printing 0 "A [] []\n".toUTF8.toList [] (.exits (.code 0)))

/-- The arguments of a scan of some targets. -/
def scanOf (targets : List String) : List String :=
  ["scan", "--yara", "/s", "-r", "/t"] ++ targets

/-- A target that is missing between two that are not, and a capture whose second line breaks the
format. -/
theorem outputs_all_or_nothing_mixed :
    text (run .standard finding false (scanOf ["/t", "/u", "/s"]) []).printed.output =
        "A /t\nA /s\n" ∧
      (run .standard finding false (scanOf ["/t", "/u", "/s"]) []).exit.code ≠ 0 ∧
      text (run .standard finding false ["parse-output"]
        "A [] []\nB [x\n".toUTF8.toList).printed.output = "" := by
  have scans := outputs_all_or_nothing.1 .standard finding false false (scanOf ["/t", "/u", "/s"])
    ⟨["/t", "/u", "/s"], ["/t"], none, [], false, none, none, false, some "/s"⟩
    ⟨⟨"/s"⟩, ["/t"], false, false, none, 60 * Text.second⟩ (fun target => scanOf [target]) []
    ⟨⟨by decide +kernel, by decide +kernel⟩, by decide +kernel, by decide +kernel⟩
    (by decide +kernel)
  have captures := outputs_all_or_nothing.2.1 .standard finding false false ["parse-output"]
    ⟨none, false⟩ "A [] []\nB [x\n".toUTF8.toList (by decide +kernel)
  refine ⟨(scans.joins (by decide +kernel)).trans (by decide +kernel), fun zero => ?_, ?_⟩
  · have missing : (Scanner.scanFile ⟨⟨"/s"⟩, ["/t"], false, false, none, 60 * Text.second⟩ finding
        "/u" []).outcome = .error (.targetUnusable (.fileMissing "/u")) := by decide +kernel
    obtain ⟨summary, outcome⟩ := scans.succeeds.mp zero "/u" (by decide)
    cases missing.symm.trans outcome
  · cases captures with
    | unreadable _ _ output | broken _ _ _ _ output => exact output
    | whole given capture found captured =>
      have rejected : (Capture.ofText
        (Text.Utf8.toStringLossy "A [] []\nB [x\n".toUTF8.toList)).isOk = false := by decide +kernel
      cases found
      exact Bool.noConfusion (rejected.symm.trans (congrArg Except.isOk captured))

end YaraReport.Session
