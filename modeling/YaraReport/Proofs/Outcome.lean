/-
This file proves that the outcome of a run is a matter of what its process prints
on each stream and how it ends. In which order the two streams reach the watch,
and when, makes no difference. For any consumer `Executable.run_cases` says so; a
scan in particular comes to what `Scanner.settlement` makes of the lines and the
status, and that is said in the terms of captures.
-/

import YaraReport.Proofs.Child.Watching
import YaraReport.Proofs.Scan.History
import YaraReport.Scanner

namespace YaraReport

open Child (Event Arrival Brings Closes Consumer streamCount)

/-! ### Runs -/

/-- Whether a run failed for want of time. -/
def Failure.isOverdue : Failure → Bool
  | .timedOut _ _ | .deadlineUnreachable | .endless _ => true
  | _ => false

namespace Executable

theorem isOverdue_verdict (executable : Executable) (limit : Option Nat)
    {outcome : Child.Outcome Failure} (cutShort : outcome.isCutShort = true) :
    ∃ failure, executable.verdict limit outcome = .error failure ∧ failure.isOverdue = true := by
  cases outcome with
  | exited status | stopped cause | unreadable error | unanswered error => cases cutShort
  | timedOut | unreachable | endless => exact ⟨_, rfl, rfl⟩

/-- A run that is not overdue hands all events to the consumer, in the order of the queue. -/
theorem run_cases {State : Type} {executable : Executable} {machine : Machine}
    {arguments : List String} {limit : Option Nat} {consumer : Child.Consumer State Failure}
    {state : State} {started : Machine.Started}
    (launched : machine.launch executable.path arguments = .ok started)
    (closes : Closes streamCount (started.run.arrivals.map Arrival.event))
    (inTime : ∀ failure, (executable.run machine arguments limit consumer state).outcome =
      .error failure → failure.isOverdue = false) :
    (∃ final cause,
      consumer.handle state (started.run.arrivals.map Arrival.event) = (final, some cause) ∧
      executable.run machine arguments limit consumer state =
        ⟨final, .error cause, some started.launch, started.machine⟩) ∨
    ∃ final exit,
      consumer.handle state (started.run.arrivals.map Arrival.event) = (final, none) ∧
      started.run.exit = some exit ∧
      executable.run machine arguments limit consumer state =
        ⟨final, executable.verdict limit exit.outcome, some started.launch, started.machine⟩ := by
  have whole : executable.run machine arguments limit consumer state =
      ⟨(Child.supervise consumer machine.clock limit state started.run).state,
        executable.verdict limit (Child.supervise consumer machine.clock limit state started.run).outcome,
        some started.launch, started.machine⟩ := by
    rw [run, launched]
  rw [whole] at inTime ⊢
  have settled := Child.supervise_settled consumer machine.clock limit state closes
  generalize Child.supervise consumer machine.clock limit state started.run = watched at inTime settled ⊢
  have decided : watched.outcome.isCutShort = false := by
    cases cutShort : watched.outcome.isCutShort with
    | false => rfl
    | true =>
      obtain ⟨failure, verdict, overdue⟩ := isOverdue_verdict executable limit cutShort
      exact overdue.symm.trans (inTime failure verdict)
  have settled := settled decided
  generalize consumer.handle state (started.run.arrivals.map Arrival.event) = handled at settled ⊢
  generalize started.run.exit = ended at settled ⊢
  cases settled with
  | stopped final cause => exact .inl ⟨final, cause, rfl, rfl⟩
  | answered final exit => exact .inr ⟨final, exit, rfl, rfl, rfl⟩

/-- A consumer that keeps more makes the same of a run. -/
theorem run_of_projects {State Fine : Type} {view : Fine → State}
    {fine : Consumer Fine Failure} {coarse : Consumer State Failure}
    (projects : fine.Projects view coarse) (executable : Executable) (machine : Machine)
    (arguments : List String) (limit : Option Nat) (state : Fine) :
    executable.run machine arguments limit coarse (view state) =
      { executable.run machine arguments limit fine state with
        state := view (executable.run machine arguments limit fine state).state } := by
  unfold run
  cases machine.launch executable.path arguments with
  | error error => rfl
  | ok started =>
    dsimp only
    rw [Child.supervise_of_projects projects]

end Executable

/-- Surroundings with a file `/s` that may be run and a plain file `/t`; running anything gives
the same run. -/
def Machine.running (run : Child.Run) : Machine where
  files := ⟨[(["s"], .file ⟨[], true⟩), (["t"], .file ⟨[], false⟩), (["tmp"], .directory)]⟩
  directory := []
  environment := []
  clock := 0
  programs _ := some fun _ => ⟨none, run⟩
  refusals := .none
  scratchNames := toString
  scratchCount := 0
  alarm := fun message => [message]

/-- A process that prints nothing and never ends. -/
def Child.Run.silent : Child.Run := ⟨[], none, .nil⟩

/-- Surroundings in which whatever runs prints nothing and never ends. -/
def Machine.quiet : Machine := .running .silent

/-! ### The lines that are read -/

namespace Reader

/-- The lines that are looked at: all, or those up to the first that breaks the format. -/
def heeded (reader : Reader) : List String → List String
  | [] => []
  | line :: lines =>
    match (reader.feed line).violation with
    | some _ => [line]
    | none => line :: heeded (reader.feed line).reader lines

variable {reader : Reader} {lines before : List String} {line : String} {violation : Violation}

theorem heeded_of_accepts (accepted : reader.Accepts lines) : reader.heeded lines = lines := by
  induction lines generalizing reader with
  | nil => rfl
  | cons line lines inductionHypothesis =>
    rw [heeded, accepted.head]
    dsimp only
    rw [inductionHypothesis accepted.tail]

theorem heeded_of_rejects (accepted : reader.Accepts before)
    (violates : ((reader.after before).feed line).violation = some violation)
    (later : List String) : reader.heeded (before ++ line :: later) = before ++ [line] := by
  induction before generalizing reader with
  | nil =>
    have violates : (reader.feed line).violation = some violation := violates
    rw [List.nil_append, heeded, violates]
    rfl
  | cons former before inductionHypothesis =>
    rw [List.cons_append, heeded, accepted.head]
    dsimp only
    rw [inductionHypothesis accepted.tail violates]
    rfl

end Reader

namespace Scanner

/-! ### Scans and their settlement -/

/-- What is seen of a scan. -/
structure Observed where
  outcome : Except Failure Summary
  /-- The rules delivered, in order. -/
  delivered : List Rule
  /-- The lines of the output stream that are handed to the reader. -/
  handed : List String
  deriving DecidableEq

/-- The lines of the output stream that the consumer of a scan is handed. -/
def handed (scanner : Scanner) (machine : Machine) (target : String) (modules : ModuleData) :
    List String :=
  if scanner.rules.isEmpty then []
  else
    match existing machine target with
    | .error _ => []
    | .ok path =>
      (scanner.executable.run machine (scanner.arguments path modules) (some scanner.limit)
        consumer.noting (⟨Reader.start, [], []⟩, [])).state.2.reverse

def observe (scanner : Scanner) (machine : Machine) (target : String) (modules : ModuleData) :
    Observed :=
  let finished := scanner.scanFile machine target modules
  ⟨finished.outcome, finished.delivered, scanner.handed machine target modules⟩

/-- What a scan comes to by the lines of the two streams and the status of the process alone. -/
def settlement (output error : List String) (status : ExitStatus) : Observed :=
  let passage := Reader.start.pass output
  match passage.stop with
  | some stop =>
    ⟨.error (.invalidOutput passage.reader.lineNumber stop.line stop.violation),
      passage.delivered, Reader.start.heeded output⟩
  | none =>
    if status.isSuccess then
      let rules := passage.delivered ++ passage.reader.progress.pending
      ⟨.ok ⟨rules.length, passage.reader.skipped, error⟩, rules, Reader.start.heeded output⟩
    else
      ⟨.error (.scannerExited status (complaint error)), passage.delivered,
        Reader.start.heeded output⟩

/-- How lines and a status settle a scan. -/
inductive Settles (output error : List String) (status : ExitStatus) (observed : Observed) :
    Prop where
  /-- The first line that breaks the format ends the scan, whatever else the process does. -/
  | broken (before : List String) (line : String) (later : List String) (violation : Violation)
      (lines : output = before ++ line :: later) (accepted : Reader.start.Accepts before)
      (violates : ((Reader.start.after before).feed line).violation = some violation)
      (outcome : observed.outcome = .error (.invalidOutput (before.length + 1) line violation))
      (delivered : observed.delivered = Reader.start.history (before ++ [line]))
      (handed : observed.handed = before ++ [line])
  /-- A process that fails loses the rule in progress; its complaint is what it printed on the
  error stream, without the white space around it. -/
  | failed (capture : Capture) (captured : Capture.ofLines output = .ok capture)
      (fails : status.isSuccess = false)
      (outcome : observed.outcome =
        .error (.scannerExited status (Text.trimmed ("\n".intercalate error))))
      (delivered : observed.delivered = capture.rules.dropLast)
      (handed : observed.handed = output)
  | whole (capture : Capture) (captured : Capture.ofLines output = .ok capture)
      (succeeds : status.isSuccess = true)
      (outcome : observed.outcome = .ok ⟨capture.rules.length, capture.skipped, error⟩)
      (delivered : observed.delivered = capture.rules) (handed : observed.handed = output)

/-- The lines of a capture that is accepted deliver all its rules but the last, which is in progress
at the end. -/
theorem capture_of_accepts {lines : List String} (accepted : Reader.start.Accepts lines) :
    ∃ capture, Capture.ofLines lines = .ok capture ∧
      Reader.start.history lines = capture.rules.dropLast ∧
      Reader.start.history lines ++ (Reader.start.after lines).progress.pending = capture.rules ∧
      (Reader.start.after lines).skipped = capture.skipped := by
  obtain ⟨active, -, rules, delivers⟩ := Reader.delivers_of_accepts accepted
  refine ⟨_, Capture.ofLines_of_accepts accepted, ?_, rfl, rfl⟩
  have last := delivers.finishes
  rw [Reader.finish_active active] at last
  rw [Except.ok.inj last, delivers.delivered]
  rcases List.eq_nil_or_concat rules with rfl | ⟨front, rule, rfl⟩
  · rfl
  · rw [List.concat_eq_append, List.getLast?_concat, List.dropLast_concat, Option.toList,
      List.dropLast_concat]

/-- The lines and the status settle a scan in one of the three ways. -/
theorem settles_settlement (output error : List String) (status : ExitStatus) :
    Settles output error status (settlement output error status) := by
  rcases Reader.accepts_or_rejects Reader.start output with
    accepted | ⟨before, line, later, violation, rfl, accepted, violates⟩
  · obtain ⟨capture, captured, front, whole, skipped⟩ := capture_of_accepts accepted
    have heard := Reader.heeded_of_accepts accepted
    rw [settlement, Reader.pass_of_accepts accepted, heard]
    cases succeeds : status.isSuccess with
    | true =>
      dsimp only
      rw [if_pos rfl, whole, skipped]
      exact .whole capture captured succeeds rfl rfl rfl
    | false =>
      dsimp only
      rw [if_neg Bool.false_ne_true]
      exact .failed capture captured succeeds rfl front rfl
  · obtain ⟨-, number, -⟩ := Reader.rejected_line accepted violates
    rw [settlement, Reader.pass_of_rejects accepted violates,
      Reader.heeded_of_rejects accepted violates]
    refine .broken before line later violation rfl accepted violates ?_ rfl rfl
    rw [number]

/-! ### The consumer of a scan -/

theorem onOutput_eq (progress : Progress) (line : String) :
    consumer.onOutput progress line =
      (⟨(progress.reader.feed line).reader,
          (progress.reader.feed line).delivered.reverse ++ progress.delivered, progress.warnings⟩,
        (progress.reader.feed line).violation.map fun violation =>
          .invalidOutput (progress.reader.feed line).reader.lineNumber line violation) := rfl

/-- What the consumer of a scan has made of events whose output lines make up a passage. -/
structure Reflects (progress : Progress) (passage : Reader.Passage) (warnings : List String)
    (handled : Progress × Option Failure) : Prop where
  reader : handled.1.reader = passage.reader
  delivered : handled.1.delivered = passage.delivered.reverse ++ progress.delivered
  cause : handled.2 = passage.stop.map fun stop =>
    .invalidOutput passage.reader.lineNumber stop.line stop.violation
  warnings : passage.stop = none → handled.1.warnings = warnings.reverse ++ progress.warnings

/-- The lines of the output stream are read up to the first violation, and those of the error
stream are kept. -/
theorem handle_consumer (progress : Progress) (events : List Event) :
    Reflects progress (progress.reader.pass (events.filterMap Event.output?))
      (events.filterMap Event.error?) (consumer.handle progress events) := by
  induction events generalizing progress with
  | nil => exact ⟨rfl, rfl, rfl, fun _ => rfl⟩
  | cons event events inductionHypothesis =>
    cases event with
    | output line =>
      show Reflects progress (progress.reader.pass (line :: events.filterMap Event.output?))
        (events.filterMap Event.error?) _
      rw [Consumer.handle, onOutput_eq, Reader.pass]
      cases (progress.reader.feed line).violation with
      | some violation => exact ⟨rfl, rfl, rfl, fun stop => by cases stop⟩
      | none =>
        have later := inductionHypothesis ⟨(progress.reader.feed line).reader,
          (progress.reader.feed line).delivered.reverse ++ progress.delivered, progress.warnings⟩
        refine ⟨later.reader, ?_, later.cause, later.warnings⟩
        refine later.delivered.trans ?_
        rw [List.reverse_append, List.append_assoc]
    | error line =>
      have later := inductionHypothesis { progress with warnings := line :: progress.warnings }
      refine ⟨later.reader, later.delivered, later.cause, fun stop => ?_⟩
      refine (later.warnings stop).trans ?_
      show _ = (line :: events.filterMap Event.error?).reverse ++ progress.warnings
      rw [List.reverse_cons, List.append_assoc, List.singleton_append]
    | closed | broken error => exact inductionHypothesis progress

/-- The consumer of a scan is handed the lines that its reader looks at. -/
theorem handle_noting (progress : Progress) (noted : List String) (events : List Event) :
    consumer.noting.handle (progress, noted) events =
      (((consumer.handle progress events).1,
          (progress.reader.heeded (events.filterMap Event.output?)).reverse ++ noted),
        (consumer.handle progress events).2) := by
  induction events generalizing progress noted with
  | nil => rfl
  | cons event events inductionHypothesis =>
    cases event with
    | output line =>
      show Consumer.handle consumer.noting (progress, noted) (.output line :: events) =
        (((consumer.handle progress (.output line :: events)).1,
          (progress.reader.heeded (line :: events.filterMap Event.output?)).reverse ++ noted),
        (consumer.handle progress (.output line :: events)).2)
      rw [Consumer.handle, Consumer.handle, Consumer.noting_onOutput, onOutput_eq, Reader.heeded]
      cases (progress.reader.feed line).violation with
      | some violation => rfl
      | none =>
        dsimp only [Option.map_none]
        rw [inductionHypothesis, List.reverse_cons, List.append_assoc, List.singleton_append]
    | error line => exact inductionHypothesis _ noted
    | closed | broken error => exact inductionHypothesis progress noted

/-! ### Scans that are not overdue -/

/-- The scanner has rules, its target exists, and it is started on it. -/
structure Starts (scanner : Scanner) (machine : Machine) (target : String) (modules : ModuleData)
    (started : Machine.Started) : Prop where
  rules : scanner.rules ≠ []
  launched : ∃ path, existing machine target = .ok path ∧
    machine.launch scanner.executable.path (scanner.arguments path modules) = .ok started

theorem scanFile_cases {scanner : Scanner} {machine : Machine} {target : String}
    {modules : ModuleData} {started : Machine.Started}
    (starts : scanner.Starts machine target modules started) :
    ∃ path, existing machine target = .ok path ∧
      machine.launch scanner.executable.path (scanner.arguments path modules) = .ok started ∧
      scanner.scanFile machine target modules =
        conclude (scanner.executable.run machine (scanner.arguments path modules)
          (some scanner.limit) consumer ⟨Reader.start, [], []⟩) := by
  obtain ⟨path, found, launched⟩ := starts.launched
  refine ⟨path, found, launched, ?_⟩
  rw [scanFile, found, List.isEmpty_eq_false_iff.mpr starts.rules]
  rfl

theorem conclude_outcome_error {finished : Executable.Finished Progress} {failure : Failure}
    (failed : finished.outcome = .error failure) : (conclude finished).outcome = .error failure := by
  rw [conclude, failed]

/-- A scan that is not overdue comes to what the lines and the status make of it. -/
theorem observe_eq_settlement {scanner : Scanner} {machine : Machine} {target : String}
    {modules : ModuleData} {started : Machine.Started}
    (starts : scanner.Starts machine target modules started) {output error : List String}
    (brings : Brings output error (started.run.arrivals.map Arrival.event)) {time : Nat}
    {status : ExitStatus} (exits : started.run.exit = some ⟨time, .ok status⟩)
    (inTime : ∀ failure, (scanner.scanFile machine target modules).outcome = .error failure →
      failure.isOverdue = false) :
    scanner.observe machine target modules = settlement output error status := by
  obtain ⟨path, found, launched, whole⟩ := scanFile_cases starts
  have rules : scanner.rules.isEmpty = false := List.isEmpty_eq_false_iff.mpr starts.rules
  have same := Executable.run_of_projects consumer.noting_projects scanner.executable machine
    (scanner.arguments path modules) (some scanner.limit) (⟨Reader.start, [], []⟩, [])
  have heard : scanner.handed machine target modules =
      (scanner.executable.run machine (scanner.arguments path modules) (some scanner.limit)
        consumer.noting (⟨Reader.start, [], []⟩, [])).state.2.reverse := by
    rw [handed, rules, found]
    rfl
  rw [whole, same] at inTime
  have ended := Executable.run_cases launched brings.closes fun failure failed =>
    inTime failure (conclude_outcome_error failed)
  have reflects := handle_consumer ⟨Reader.start, [], []⟩ (started.run.arrivals.map Arrival.event)
  rw [handle_noting, brings.output_eq] at ended
  rw [brings.output_eq, brings.error_eq] at reflects
  generalize consumer.handle ⟨Reader.start, [], []⟩ (started.run.arrivals.map Arrival.event) =
    handled at ended reflects
  obtain ⟨progress, called⟩ := handled
  have delivered := reflects.delivered
  have cause := reflects.cause
  have kept := reflects.warnings
  dsimp only at delivered cause kept ended
  rw [List.append_nil] at delivered
  rw [observe, whole, heard, same, settlement]
  rcases ended with ⟨final, failure, handled, ran⟩ | ⟨final, ended, handled, ends, ran⟩
  · cases handled
    cases stopped : (Reader.start.pass output).stop with
    | none =>
      rw [stopped] at cause
      cases cause
    | some stop =>
      rw [stopped] at cause
      rw [ran, conclude, Option.some.inj cause]
      dsimp only
      rw [delivered, List.reverse_reverse, List.append_nil, List.reverse_reverse]
  · cases handled
    obtain rfl := Option.some.inj (exits.symm.trans ends)
    cases stopped : (Reader.start.pass output).stop with
    | some stop =>
      rw [stopped] at cause
      cases cause
    | none =>
      have warnings := kept stopped
      rw [List.append_nil] at warnings
      rw [ran, conclude, Child.Exit.outcome, Executable.verdict]
      dsimp only
      rw [delivered, reflects.reader, warnings, List.reverse_reverse, List.reverse_reverse,
        List.append_nil, List.reverse_reverse]
      cases status.isSuccess <;> rfl

/-- A scan whose process is prompt is not overdue. -/
theorem scanFile_prompt {scanner : Scanner} {machine : Machine} {target : String}
    {modules : ModuleData} {started : Machine.Started}
    (starts : scanner.Starts machine target modules started) {output error : List String}
    (brings : Brings output error (started.run.arrivals.map Arrival.event))
    (reachable : Child.isReachable machine.clock scanner.limit = true)
    (prompt : started.run.Prompt scanner.limit) (failure : Failure)
    (failed : (scanner.scanFile machine target modules).outcome = .error failure) :
    failure.isOverdue = false := by
  obtain ⟨path, -, launched, whole⟩ := scanFile_cases starts
  have settled := Child.supervise_settled consumer machine.clock (some scanner.limit)
    ⟨Reader.start, [], []⟩ brings.closes
    (Child.supervise_prompt consumer reachable ⟨Reader.start, [], []⟩ brings.closes prompt)
  have reflects := handle_consumer ⟨Reader.start, [], []⟩ (started.run.arrivals.map Arrival.event)
  rw [whole, Executable.run, launched] at failed
  dsimp only at failed
  generalize Child.supervise consumer machine.clock (some scanner.limit) ⟨Reader.start, [], []⟩
    started.run = watched at settled failed
  generalize consumer.handle ⟨Reader.start, [], []⟩ (started.run.arrivals.map Arrival.event) =
    handled at settled reflects
  generalize started.run.exit = ended at settled
  cases settled with
  | stopped state cause =>
    obtain rfl : cause = failure := Except.error.inj failed
    obtain ⟨stop, -, rfl⟩ := Option.map_eq_some_iff.mp reflects.cause.symm
    rfl
  | answered state exit =>
    obtain ⟨time, _ | status⟩ := exit
    · cases failed
      rfl
    · rw [Child.Exit.outcome, Executable.verdict, conclude] at failed
      dsimp only at failed
      split at failed
      · cases failed
      · cases failed
        rfl

/-- The outcome of a scan, the rules it delivers and the lines its reader is handed depend only on
the lines of the two streams and on the status: not on the order in which the streams reach the
watch, and not on time where the process is prompt. -/
theorem scans_settle :
    (∀ output error status, Settles output error status (settlement output error status)) ∧
    (∀ (scanner : Scanner) (machine : Machine) (target : String) (modules : ModuleData)
      (started : Machine.Started) (output error : List String) (time : Nat) (status : ExitStatus),
      scanner.Starts machine target modules started →
      Brings output error (started.run.arrivals.map Arrival.event) →
      started.run.exit = some ⟨time, .ok status⟩ →
      (∀ failure, (scanner.scanFile machine target modules).outcome = .error failure →
        failure.isOverdue = false) →
      scanner.observe machine target modules = settlement output error status) ∧
    ∀ (scanner : Scanner) (machine : Machine) (target : String) (modules : ModuleData)
      (started : Machine.Started) (output error : List String),
      scanner.Starts machine target modules started →
      Brings output error (started.run.arrivals.map Arrival.event) →
      Child.isReachable machine.clock scanner.limit = true →
      started.run.Prompt scanner.limit →
      ∀ failure, (scanner.scanFile machine target modules).outcome = .error failure →
        failure.isOverdue = false :=
  ⟨settles_settlement, fun _ _ _ _ _ _ _ _ _ starts brings exits inTime =>
    observe_eq_settlement starts brings exits inTime, fun _ _ _ _ _ _ _ starts brings reachable
    prompt => scanFile_prompt starts brings reachable prompt⟩

/-- A scanner with one file of rules, whose executable is the file `/s`. -/
def withOneFile (limit : Nat) : Scanner := ⟨⟨"/s"⟩, ["/r"], false, false, none, limit⟩

/-- A process whose error stream comes between the lines of its output stream, while the watch is
busy with the first of these. -/
def between : Child.Run :=
  ⟨[⟨1, .output "a [] []", 9⟩, ⟨2, .error "w ", 0⟩, ⟨3, .closed, 0⟩, ⟨9, .output "b [] []", 0⟩,
    ⟨9, .closed, 0⟩], some ⟨12, .ok (.code 1)⟩, by decide⟩

theorem scans_settle_between_lines :
    (withOneFile 20).observe (.running between) "/t" [] =
      ⟨.error (.scannerExited (.code 1) "w"), [⟨"a", [], [], []⟩], ["a [] []", "b [] []"]⟩ := by
  have starts : Starts (withOneFile 20) (.running between) "/t" [] _ :=
    ⟨List.cons_ne_nil _ _, "/t", rfl, rfl⟩
  have brings : Brings ["a [] []", "b [] []"] ["w "]
      [.output "a [] []", .error "w ", .closed, .output "b [] []", .closed] :=
    .left (.right (.right (.left (.left .done))))
  have inTime := scans_settle.2.2 _ _ _ _ _ _ _ starts brings (by decide)
    ⟨by decide, _, rfl, by decide⟩
  refine (scans_settle.2.1 _ _ _ _ _ _ _ _ _ starts brings rfl inTime).trans ?_
  decide +kernel

/-- The complaint of a scanner that failed is not all that it printed on the error stream: a blank
at the end is missing. -/
theorem complaint_not_verbatim :
    ∃ started : Machine.Started,
      Starts (withOneFile 1) (.running (.printing 0 [] [120, 32, 10] (.exits (.code 1)))) "/t" []
        started ∧
      Brings [] ["x "] (started.run.arrivals.map Arrival.event) ∧
      started.run.exit = some ⟨0, .ok (.code 1)⟩ ∧
      ((withOneFile 1).scanFile (.running (.printing 0 [] [120, 32, 10] (.exits (.code 1))))
        "/t" []).outcome = .error (.scannerExited (.code 1) "x") ∧
      ((withOneFile 1).scanFile (.running (.printing 0 [] [120, 32, 10] (.exits (.code 1))))
        "/t" []).outcome ≠ .error (.scannerExited (.code 1) ("\n".intercalate ["x "])) := by
  refine ⟨_, ⟨List.cons_ne_nil _ _, "/t", rfl, rfl⟩, .left (.right (.right .done)), rfl, ?_, ?_⟩
  · decide +kernel
  · decide +kernel

end Scanner

end YaraReport
