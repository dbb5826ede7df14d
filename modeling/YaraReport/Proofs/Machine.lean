/-
This file proves what the surroundings are after a request to them. A temporary file is
made where there was nothing, and all else stays (`makes_of_makeScratch`). A file that is
moved or copied stands where the other path leads (`moved_of_move`, `copied_of_copy`). A
program that is told to write to a temporary file writes there and nowhere else
(`Makes.writes_launch`); a script is run by another program, but that only puts arguments
in front, so the last one is the same (`calls_of_call`).
-/

import YaraReport.Machine
import YaraReport.Proofs.FileTree

namespace YaraReport.Machine

variable {machine extended after : Machine} {scratch : Scratch}

/-! ### Temporary files -/

/-- A temporary file is made where there was nothing, and its path leads there. -/
structure Makes (machine : Machine) (scratch : Scratch) (extended : Machine) : Prop where
  fresh : machine.files.node? scratch.place = none
  leads : machine.files.Leads machine.directory scratch.path scratch.place
  rest : ∃ count, extended =
    { machine with
      files := machine.files.set scratch.place (.file ⟨[], false⟩), scratchCount := count }

theorem leads_of_vacancy {path : String} {place : Place}
    (vacant : machine.vacancy path = .ok place) :
    machine.files.Leads machine.directory path place ∧ machine.files.node? place = none := by
  unfold vacancy at vacant
  split at vacant
  · cases vacant
  · rename_i found
    split at vacant
    · cases vacant
    · cases vacant
      exact FileTree.vacancy_eq_ok_iff.mp found

theorem makes_of_tryScratch {directory extension : String} {tries : Nat}
    (made : machine.tryScratch directory extension tries = .ok (scratch, extended)) :
    machine.Makes scratch extended := by
  -- A name that is taken costs a number and nothing else.
  induction tries generalizing machine with
  | zero => cases made
  | succ tries inductionHypothesis =>
    unfold tryScratch at made
    dsimp only at made
    split at made
    · rename_i vacant
      obtain ⟨leads, fresh⟩ := leads_of_vacancy vacant
      cases made
      exact ⟨fresh, leads, _, rfl⟩
    · split at made
      · obtain ⟨fresh, leads, count, rest⟩ := inductionHypothesis made
        exact ⟨fresh, leads, count, rest⟩
      · cases made

theorem makes_of_makeScratch {extension : String}
    (made : machine.makeScratch extension = .ok (scratch, extended)) :
    machine.Makes scratch extended := by
  unfold makeScratch at made
  exact makes_of_tryScratch made

namespace Makes

theorem directory (makes : machine.Makes scratch extended) :
    extended.directory = machine.directory := by
  obtain ⟨_, rest⟩ := makes.rest
  rw [rest]

theorem clock (makes : machine.Makes scratch extended) : extended.clock = machine.clock := by
  obtain ⟨_, rest⟩ := makes.rest
  rw [rest]

theorem programs (makes : machine.Makes scratch extended) :
    extended.programs = machine.programs := by
  obtain ⟨_, rest⟩ := makes.rest
  rw [rest]

theorem plain (makes : machine.Makes scratch extended) :
    machine.files.node? scratch.place ≠ some .directory := by
  rw [makes.fresh]
  exact nofun

theorem ne_of_stands (makes : machine.Makes scratch extended) {place : Place} {node : Node}
    (stands : machine.files.node? place = some node) : place ≠ scratch.place := by
  rintro rfl
  cases stands.symm.trans makes.fresh

theorem writes (makes : machine.Makes scratch extended) :
    machine.files.Writes extended.files scratch.place [] := by
  obtain ⟨_, rest⟩ := makes.rest
  rw [rest]
  exact FileTree.writes_set makes.plain

end Makes

/-! ### Moving and copying -/

section

variable {source destination : String} {origin : Place} {file : File}

/-- What is moved is gone from its place and stands where the other path leads. -/
theorem moved_of_move (found : machine.find source = .ok (origin, .file file))
    (moved : machine.move source destination = .ok after) :
    ∃ place, machine.files.target machine.directory destination = .ok place ∧
      after = { machine with files := (machine.files.erase origin).set place (.file file) } := by
  unfold move at moved
  rw [found] at moved
  dsimp only at moved
  split at moved
  · cases moved
  · rename_i place target
    split at moved
    · cases moved
    · cases moved
      exact ⟨place, target, rfl⟩

/-- What is copied stands at its place and where the other path leads. -/
theorem copied_of_copy (found : machine.find source = .ok (origin, .file file))
    (copied : machine.copy source destination = .ok after) :
    ∃ place, machine.files.target machine.directory destination = .ok place ∧
      after = { machine with files := machine.files.set place (.file file) } := by
  unfold copy at copied
  rw [found] at copied
  dsimp only at copied
  split at copied
  · cases copied
  · rename_i place target
    split at copied
    · cases copied
    · cases copied
      exact ⟨place, target, rfl⟩

end

/-! ### Handed arguments -/

variable {arguments : List String} {path last : String} {call : Call}

/-- One of a machine's programs is called, with some arguments at the end of its own. -/
structure Calls (machine : Machine) (arguments : List String) (call : Call) : Prop where
  stands : machine.programs call.place = some call.program
  handed : arguments <:+ call.arguments

theorem Calls.ends (calls : machine.Calls arguments call) (ends : arguments.getLast? = some last) :
    call.arguments.getLast? = some last := by
  obtain ⟨front, whole⟩ := calls.handed
  rw [← whole, List.getLast?_append, ends]
  rfl

theorem calls_of_callOf {limit : Nat} {place : Place}
    (called : machine.callOf limit place path arguments = .ok call) :
    machine.Calls arguments call := by
  -- Every script on the way puts arguments in front.
  induction limit generalizing place path arguments with
  | zero => cases called
  | succ limit inductionHypothesis =>
    unfold callOf at called
    split at called
    · rename_i program stands
      cases called
      exact ⟨stands, List.suffix_rfl⟩
    · split at called
      · cases called
      · split at called
        · cases called
        · obtain ⟨stands, handed⟩ := inductionHypothesis called
          exact ⟨stands, (List.suffix_append _ _).trans handed⟩

theorem calls_of_callAt (called : machine.callAt arguments path = .ok call) :
    machine.Calls arguments call := by
  unfold callAt at called
  split at called
  · cases called
  · split at called
    · cases called
    · exact calls_of_callOf called

theorem calls_of_search {name : String} {refusal : SystemError} {directories : List String}
    (called : machine.search arguments name refusal directories = .ok call) :
    machine.Calls arguments call := by
  induction directories generalizing refusal with
  | nil => cases called
  | cons directory rest inductionHypothesis =>
    unfold search at called
    split at called
    · rename_i found
      cases called
      exact calls_of_callAt found
    · split at called
      · exact inductionHypothesis called
      · cases called

theorem calls_of_call {name : String} (called : machine.call name arguments = .ok call) :
    machine.Calls arguments call := by
  unfold Machine.call at called
  split at called
  · cases called
  · split at called
    · cases called
    · split at called
      · exact calls_of_callAt called
      · exact calls_of_search called

/-- A start of one of a machine's programs whose last argument is a path, and the bytes that the
program leaves in an empty file there. -/
def Leaves (machine : Machine) (launch : Launch) (path : String) (content : List UInt8) : Prop :=
  launch.arguments.getLast? = some path ∧
    ∃ program, machine.programs launch.program = some program ∧
      (program launch.arguments).written.getD [] = content

theorem directory_writeLast (machine : Machine) (arguments : List String)
    (written : Option (List UInt8)) :
    (machine.writeLast arguments written).directory = machine.directory := by
  unfold writeLast
  split
  · split <;> rfl
  · rfl

theorem Makes.writes_writeLast (makes : machine.Makes scratch extended)
    (ends : arguments.getLast? = some scratch.path) (written : Option (List UInt8)) :
    machine.files.Writes (extended.writeLast arguments written).files scratch.place
      (written.getD []) := by
  cases written with
  | none => exact makes.writes
  | some content =>
    have leads : extended.files.Leads extended.directory scratch.path scratch.place := by
      rw [makes.directory]
      exact makes.leads.of_keeps makes.writes.keeps
    have plain : extended.files.node? scratch.place ≠ some .directory := by
      obtain ⟨runnable, stands⟩ := makes.writes.stands
      rw [stands]
      exact nofun
    obtain ⟨after, written, writes⟩ := FileTree.write_of_leads leads plain content
    unfold writeLast
    rw [ends]
    dsimp only
    rw [written]
    exact makes.writes.trans writes

/-- A program that is told to write to a new temporary file writes there and nowhere else. -/
theorem Makes.writes_launch (makes : machine.Makes scratch extended)
    (ends : arguments.getLast? = some scratch.path) {name : String} {started : Started}
    (launched : extended.launch name arguments = .ok started) :
    started.machine.directory = machine.directory ∧
      ∃ content, machine.Leaves started.launch scratch.path content ∧
        machine.files.Writes started.machine.files scratch.place content := by
  unfold launch at launched
  split at launched
  · cases launched
  · rename_i called
    have calls := calls_of_call called
    have last := calls.ends ends
    have stands := calls.stands
    rw [makes.programs] at stands
    cases launched
    refine ⟨?_, _, ⟨last, _, stands, rfl⟩, makes.writes_writeLast last _⟩
    exact (directory_writeLast _ _ _).trans makes.directory

end YaraReport.Machine
