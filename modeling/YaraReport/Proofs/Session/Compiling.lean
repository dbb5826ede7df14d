/-
This file proves what a compilation does to the files. The compiler is told to write
to a temporary file, which is made for it; only when it has succeeded are the rules
moved to the output path, or copied there where they cannot be moved. Whatever fails,
before the compiler is started or after, the files are as they were, the temporary one
being gone.

What each stage may leave behind is said by a predicate: a compilation (`Settles`), the
move of the rules (`Persists`) and the whole command (`Delivers`). The main statement is
`compile_keeps_or_replaces`.
-/

import YaraReport.Proofs.Machine
import YaraReport.Proofs.Session.Ending

namespace YaraReport

/-! ### Compilers -/

namespace Compiler

variable {machine extended after : Machine} {scratch : Machine.Scratch}

/-- How a compilation may end: it fails with the files as before, or the temporary file that was
made for it holds what the compiler left there, with all other files as before. -/
inductive Settles (machine : Machine) (finished : Finished) : Prop where
  | failed (failure : Failure) (outcome : finished.outcome = .error failure)
      (agrees : finished.machine.files.Agrees machine.files)
  | compiled (scratch : Machine.Scratch) (extended : Machine) (warnings : Nat) (launch : Launch)
      (content : List UInt8)
      (made : machine.makeScratch outputExtension = .ok (scratch, extended))
      (outcome : finished.outcome = .ok ⟨scratch, warnings⟩)
      (launched : finished.launch = some launch)
      (leaves : machine.Leaves launch scratch.path content)
      (directory : finished.machine.directory = machine.directory)
      (writes : machine.files.Writes finished.machine.files scratch.place content)

theorem getLast?_arguments (compiler : Compiler) (output : String) :
    (compiler.arguments output).getLast? = some output :=
  List.getLast?_concat

theorem settles_compile (compiler : Compiler) (machine : Machine) :
    Settles machine (compiler.compile machine) := by
  unfold compile
  split
  · exact .failed _ rfl fun _ => rfl
  · split
    · exact .failed _ rfl fun _ => rfl
    · rename_i scratch extended made
      have makes := Machine.makes_of_makeScratch made
      unfold Executable.run
      split
      · exact .failed _ rfl (makes.writes.agrees_erase makes.fresh)
      · rename_i started launched
        obtain ⟨directory, content, leaves, writes⟩ :=
          makes.writes_launch (compiler.getLast?_arguments _) launched
        have gone := writes.agrees_erase makes.fresh
        unfold conclude
        dsimp only
        split
        · exact .failed _ rfl gone
        · split
          · exact .compiled scratch extended _ started.launch content made rfl rfl leaves directory
              writes
          · exact .failed _ rfl gone

/-! ### Moving the rules -/

/-- How persisting rules may leave the files: it fails and they are as before, or the file that the
output path leads to holds the rules, with all other files as before. Nothing is said of a path that
leads to the temporary file itself, where the rules are moved to where they are. -/
inductive Persists (machine : Machine) (output : String) (temporary : Place)
    (content : List UInt8) (result : Except Failure Unit × Machine) : Prop where
  | kept (error : SystemError) (outcome : result.1 = .error (.notPersisted output error))
      (agrees : result.2.files.Agrees machine.files)
  | replaced (place : Place) (outcome : result.1 = .ok ())
      (target : machine.files.target machine.directory output = .ok place)
      (writes : place ≠ temporary → machine.files.Writes result.2.files place content)

section

variable {output : String} {content : List UInt8} {place : Place}

/-- While the temporary file is there, the output path leads where it did before. -/
theorem target_of_writes (writes : machine.files.Writes after.files scratch.place content)
    (target : after.files.target machine.directory output = .ok place) :
    machine.files.target machine.directory output = .ok place := by
  obtain ⟨leads, plain⟩ := FileTree.target_eq_ok_iff.mp target
  refine FileTree.target_eq_ok_iff.mpr ⟨leads.of_keeps writes.keeps_back, ?_⟩
  by_cases same : place = scratch.place
  · exact same ▸ writes.plain
  · exact writes.others place same ▸ plain

/-- Rules are moved, or copied, or neither; the temporary file is gone in each case. -/
theorem persists_persist (makes : machine.Makes scratch extended)
    (directory : after.directory = machine.directory)
    (writes : machine.files.Writes after.files scratch.place content) (warnings : Nat) :
    Persists machine output scratch.place content
      (Compiled.persist ⟨scratch, warnings⟩ after output) := by
  obtain ⟨runnable, stands⟩ := writes.stands
  have leads := makes.leads.of_keeps writes.keeps
  have found : after.find scratch.path = .ok (scratch.place, .file ⟨content, runnable⟩) := by
    rw [Machine.find, directory]
    exact leads.find stands
  unfold Compiled.persist
  dsimp only
  split
  · rename_i moved done
    obtain ⟨place, target, rfl⟩ := Machine.moved_of_move found done
    rw [directory] at target
    have target := target_of_writes writes target
    have plain := (FileTree.target_eq_ok_iff.mp target).2
    exact .replaced place rfl target fun _ => writes.moved makes.fresh plain runnable
  · split
    · rename_i copied done
      obtain ⟨place, target, rfl⟩ := Machine.copied_of_copy found done
      have plain := (FileTree.target_eq_ok_iff.mp target).2
      rw [directory] at target
      exact .replaced place rfl (target_of_writes writes target)
        (writes.erase makes.fresh (FileTree.writes_set plain))
    · exact .kept _ rfl (writes.agrees_erase makes.fresh)

end

end Compiler

/-! ### Commands -/

namespace Session

variable {machine : Machine} {output : String}

/-- How a compilation may leave the files: it does not succeed and they are as before, or it
succeeds and the file that the output path leads to holds what the compiler left in the temporary
file that was made for it, with all other files as before. Nothing is said of a path that leads to
the temporary file itself. -/
inductive Delivers (machine : Machine) (output : String) (result : Result) : Prop where
  | kept (exit : result.exit ≠ .success) (agrees : result.machine.files.Agrees machine.files)
  | replaced (scratch : Machine.Scratch) (extended : Machine) (launch : Launch)
      (content : List UInt8) (place : Place)
      (made : machine.makeScratch Compiler.outputExtension = .ok (scratch, extended))
      (exit : result.exit = .success) (launches : result.launches = [launch])
      (leaves : machine.Leaves launch scratch.path content)
      (target : machine.files.target machine.directory output = .ok place)
      (writes : place ≠ scratch.place → machine.files.Writes result.machine.files place content)

theorem Delivers.after {result : Result} (delivers : Delivers machine output result)
    (printed : Printed) : Delivers machine output (result.after printed) := by
  cases delivers with
  | kept exit agrees => exact .kept exit agrees
  | replaced scratch extended launch content place made exit launches leaves target writes =>
    exact .replaced scratch extended launch content place made exit launches leaves target writes

/-- The temporary file is gone, unless it is the output file. -/
theorem Delivers.gone {result : Result} (delivers : Delivers machine output result)
    {scratch : Machine.Scratch} {extended : Machine}
    (made : machine.makeScratch Compiler.outputExtension = .ok (scratch, extended))
    (apart : machine.files.target machine.directory output ≠ .ok scratch.place) :
    result.machine.files.node? scratch.place = none := by
  have fresh := (Machine.makes_of_makeScratch made).fresh
  cases delivers with
  | kept exit agrees => exact (agrees _).trans fresh
  | replaced other _ launch content place same exit launches leaves target writes =>
    cases same.symm.trans made
    have different : place ≠ scratch.place := by
      rintro rfl
      exact apart target
    exact ((writes different).others _ different.symm).trans fresh

theorem delivers_fail {after : Machine} (agrees : after.files.Agrees machine.files)
    (context : Context) (launches : List Launch) (failure : Failure) :
    Delivers machine output (fail context after launches failure) := by
  unfold fail
  split
  · exact .kept Exit.noConfusion agrees
  · exact .kept Exit.noConfusion agrees

theorem delivers_compile (context : Context) (machine : Machine) (request : CompileRequest) :
    Delivers machine request.output (compile context machine request) := by
  unfold compile
  dsimp only
  split
  · exact delivers_fail (fun _ => rfl) _ _ _
  · rename_i compiler _
    unfold concludeCompilation
    cases compiler.settles_compile machine with
    | failed failure outcome agrees =>
      rw [outcome]
      dsimp only
      split
      · exact delivers_fail agrees _ _ _
      · exact (delivers_fail agrees _ _ _).after _
      · cases ‹Except.error failure = _›
    | compiled scratch extended warnings launch content made outcome launched leaves directory
        writes =>
      rw [outcome, launched]
      refine Delivers.after ?_ _
      have persists : Compiler.Persists machine request.output scratch.place content _ :=
        Compiler.persists_persist (Machine.makes_of_makeScratch made) directory writes warnings
      generalize Compiler.Compiled.persist _ _ _ = persisted at persists
      obtain ⟨outcome, final⟩ := persisted
      cases persists with
      | kept error failed agrees =>
        cases failed
        exact delivers_fail agrees _ _ _
      | replaced place done target writes =>
        cases done
        exact .replaced scratch extended launch content place made rfl rfl leaves target writes

/-- A compilation that is given a time limit the clock can show fails and leaves all files as they
were, or succeeds and leaves at its output path what the compiler left in the temporary file that
its last argument names, with all other files as they were. The temporary file is gone in both
cases. What succeeds is not described where the output path names the temporary file itself. -/
theorem compile_keeps_or_replaces {readers : Readers} {arguments : List String}
    {request : CompileRequest} {noColor : Bool}
    (asked : readers.arguments arguments = .ok ⟨.compile request, noColor⟩)
    (machine : Machine) (terminal : Bool) (stdin : List UInt8)
    (inTime : ¬ Overruns machine
      (timeout? (found readers.settings machine terminal) (.compile request))) :
    let result := run readers machine terminal arguments stdin
    (∀ scratch extended, machine.makeScratch Compiler.outputExtension = .ok (scratch, extended) →
        machine.files.target machine.directory request.output ≠ .ok scratch.place →
        result.machine.files.node? scratch.place = none) ∧
      ((result.exit = .failure ∧ result.machine.files.Agrees machine.files ∧
          result.machine.files.read machine.directory request.output =
            machine.files.read machine.directory request.output) ∨
        (result.exit = .success ∧ ∃ scratch extended launch content place,
          machine.makeScratch Compiler.outputExtension = .ok (scratch, extended) ∧
          result.launches = [launch] ∧ machine.Leaves launch scratch.path content ∧
          machine.files.target machine.directory request.output = .ok place ∧
          (place ≠ scratch.place →
            machine.files.Writes result.machine.files place content ∧
            result.machine.files.read machine.directory request.output = .ok content))) := by
  intro result
  obtain ⟨notice, runs⟩ : ∃ notice, result =
      (compile (contextOf readers.settings machine terminal noColor) machine
        request).after notice :=
    ⟨_, run_of_read asked machine terminal stdin⟩
  have delivers := (delivers_compile (contextOf readers.settings machine terminal noColor) machine
    request).after notice
  have ends := (ends_compile (contextOf readers.settings machine terminal noColor) machine
    request).after notice
  rw [← overruns_iff] at ends
  rw [← runs] at ends delivers
  refine ⟨fun scratch extended made => delivers.gone made, ?_⟩
  cases delivers with
  | kept exit agrees =>
    refine .inl ⟨?_, agrees, agrees.read _ _⟩
    cases ends with
    | aborted _ _ far => exact absurd far inTime
    | reported ended _ => exact ended.resolve_left exit
  | replaced scratch extended launch content place made exit launches leaves target writes =>
    refine .inr ⟨exit, scratch, extended, launch, content, place, made, launches, leaves, target,
      fun apart => ⟨writes apart, ?_⟩⟩
    exact (writes apart).read (FileTree.target_eq_ok_iff.mp target).1

/-- A machine whose compiler writes one byte and exits with a code. -/
def storing (code : Nat) : Machine :=
  { Machine.quiet with
    programs := fun _ => some fun _ => ⟨some [7], .printing 0 [] [] (.exits (.code code))⟩ }

/-- The same where no file can be moved, as its destination is on another disk. -/
def storingAway (code : Nat) : Machine :=
  { storing code with
    refusals :=
      { Refusals.none with moving? := fun _ _ => some (.other 18 "Invalid cross-device link") } }

/-- The arguments of a compilation to `/t`. -/
def compileThere : List String := ["compile", "--yarac", "/s", "-o", "/t", "/s"]

theorem not_overruns_start {machine : Machine} (start : machine.clock = 0) :
    ¬ Overruns machine (some 60) := by
  rintro ⟨limit, same, far⟩
  cases same
  rw [start] at far
  exact absurd far (by decide)

/-- A compiler that succeeds replaces the output file, on the same disk or on another; one that
fails does not, whatever it has written. -/
theorem compile_replaces_or_keeps_byte :
    (run .standard (storing 0) false compileThere []).machine.files.read [] "/t" = .ok [7] ∧
      (run .standard (storingAway 0) false compileThere []).machine.files.read [] "/t" = .ok [7] ∧
      (run .standard (storing 1) false compileThere []).machine.files.read [] "/t" = .ok [] := by
  have asked : Readers.standard.arguments compileThere =
      .ok ⟨.compile ⟨["/s"], "/t", none, false, some "/s"⟩, false⟩ := by decide +kernel
  have target : Machine.quiet.files.target [] "/t" = .ok ["t"] := by decide +kernel
  have stands : Machine.quiet.files.node? ["t"] = some (.file ⟨[], false⟩) := by decide +kernel
  have byte {launch : Launch} {path : String} {content : List UInt8}
      (leaves : (storing 0).Leaves launch path content) : content = [7] := by
    obtain ⟨-, program, stands, rfl⟩ := leaves
    cases stands
    rfl
  -- Something stands at the output path, so the temporary file is made elsewhere.
  have elsewhere (machine : Machine) (files : machine.files = Machine.quiet.files)
      {extended : Machine} {scratch : Machine.Scratch} {place : Place}
      (made : machine.makeScratch Compiler.outputExtension = .ok (scratch, extended))
      (there : Machine.quiet.files.target [] "/t" = .ok place) : place ≠ scratch.place := by
    cases target.symm.trans there
    exact (Machine.makes_of_makeScratch made).ne_of_stands (files ▸ stands)
  refine ⟨?_, ?_, ?_⟩
  · rcases (compile_keeps_or_replaces asked (storing 0) false [] (not_overruns_start rfl)).2 with
      ⟨failed, -⟩ | ⟨-, _, _, _, _, _, made, -, leaves, there, holds⟩
    · exact absurd failed (by decide +kernel)
    · exact byte leaves ▸ (holds (elsewhere (storing 0) rfl made there)).2
  · rcases (compile_keeps_or_replaces asked (storingAway 0) false []
      (not_overruns_start rfl)).2 with
      ⟨failed, -⟩ | ⟨-, _, _, _, _, _, made, -, leaves, there, holds⟩
    · exact absurd failed (by decide +kernel)
    · exact byte leaves ▸ (holds (elsewhere (storingAway 0) rfl made there)).2
  · rcases (compile_keeps_or_replaces asked (storing 1) false [] (not_overruns_start rfl)).2 with
      ⟨-, -, read⟩ | ⟨succeeded, -⟩
    · exact read.trans (by decide +kernel)
    · exact absurd succeeded (by decide +kernel)

end Session

end YaraReport
