/-
This file proves that the search for a settings file ends with the nearest one. The
search looks into a directory, and then into the one above it, until it has found a file
of the right name or has looked into the root. Something else of that name, such as a
directory, does not end it. So it looks into a directory at most once, in the order from
the beginning up to the root, and whatever it ends with is the deepest file
(`climbs_nearest?`).

What the search asks for is a path, so a name that is too long to be asked for counts as
no file; apart from that a directory holds what stands in it (`holds_iff`).
-/

import Mathlib.Data.List.Infix
import YaraReport.Proofs.Loops
import YaraReport.Proofs.Path
import YaraReport.Settings

namespace YaraReport

/-! ### Directories above a place -/

namespace Place

/-- A place and the directories above it, up to the root. -/
def upwards (place : Place) : List Place := place.inits.reverse

theorem upwards_nil : upwards [] = [[]] := rfl

theorem upwards_concat (above : Place) (name : String) :
    upwards (above ++ [name]) = (above ++ [name]) :: upwards above := by
  simp [upwards]

theorem mem_upwards {place directory : Place} : directory ∈ upwards place ↔ directory <+: place := by
  rw [upwards, List.mem_reverse, List.mem_inits]

theorem nodup_upwards (place : Place) : (upwards place).Nodup := by
  induction place using List.reverseRecOn with
  | nil => simp [upwards_nil]
  | append_singleton above name inductionHypothesis =>
    rw [upwards_concat]
    refine List.nodup_cons.mpr ⟨fun member => ?_, inductionHypothesis⟩
    have bound := (mem_upwards.mp member).length_le
    rw [List.length_append, List.length_singleton] at bound
    omega

end Place

namespace Settings

variable {files : FileTree} {place directory : Place}

/-! ### The search -/

/-- A directory holds a settings file: the path of that name in it leads to a file. -/
def Holds (files : FileTree) (directory : Place) : Prop :=
  ∃ place file, files.find [] (Place.path (directory ++ [fileName])) = .ok (place, .file file)

theorem holdsFile_iff :
    holdsFile files (directory ++ [fileName]) = true ↔ Holds files directory :=
  FileTree.isFile_iff

/-- A directory that the tree has a way to holds a settings file exactly if a file stands in it
under that name and its path may be asked for. -/
theorem holds_iff (proper : directory.Proper)
    (reached : files.follow [] (directory ++ [fileName]) = .ok (directory ++ [fileName])) :
    Holds files directory ↔
      FileTree.refusal? (Place.path (directory ++ [fileName])) = none ∧
        ∃ file, files.node? (directory ++ [fileName]) = some (.file file) := by
  have named : directory ++ [fileName] ≠ [] :=
    List.append_ne_nil_of_right_ne_nil _ (List.cons_ne_nil _ _)
  have spelled : Place.Proper (directory ++ [fileName]) :=
    List.forall_mem_append.mpr ⟨proper, List.forall_mem_singleton.mpr (by decide)⟩
  have finds {node : Node} :
      files.find [] (Place.path (directory ++ [fileName])) = .ok (directory ++ [fileName], node) ↔
        FileTree.refusal? (Place.path (directory ++ [fileName])) = none ∧
          files.node? (directory ++ [fileName]) = some node :=
    FileTree.find_path_iff named spelled reached
  constructor
  · rintro ⟨place, file, found⟩
    obtain ⟨accepted, follows, stands⟩ := FileTree.find_eq_ok_iff.mp found
    rw [FileTree.follow_path named spelled reached] at follows
    cases follows
    exact ⟨accepted, file, stands⟩
  · rintro ⟨accepted, file, stands⟩
    exact ⟨_, file, finds.mpr ⟨accepted, stands⟩⟩

instance (files : FileTree) (directory : Place) : Decidable (Holds files directory) :=
  decidable_of_iff _ holdsFile_iff

/-- Looks for a settings file in a directory. Without one the search goes on above the directory,
and ends where there is nothing above. -/
def look (files : FileTree) (directory : Place) : Round Place (Option Place) :=
  if Holds files directory then .done (some (directory ++ [fileName]))
  else if directory = [] then .done none
  else .again directory.dropLast

theorem nearest?_nil :
    nearest? files (List.reverse []) = if Holds files [] then some [fileName] else none := by
  simp [nearest?, ← holdsFile_iff]

theorem nearest?_concat (above : Place) (name : String) :
    nearest? files (above ++ [name]).reverse =
      if Holds files (above ++ [name]) then some (above ++ [name] ++ [fileName])
      else nearest? files above.reverse := by
  simp [nearest?, ← holdsFile_iff]

/-! ### The nearest file -/

/-- A directory is the deepest one at or above a place that holds a settings file. -/
structure IsNearest (files : FileTree) (place directory : Place) : Prop where
  above : directory <+: place
  holds : Holds files directory
  deepest : ∀ other, other <+: place → Holds files other → other <+: directory

/-- There is at most one deepest directory. -/
theorem IsNearest.unique {other : Place} (nearest : IsNearest files place directory)
    (again : IsNearest files place other) : directory = other :=
  (again.deepest _ nearest.above nearest.holds).eq_of_length_le
    (nearest.deepest _ again.above again.holds).length_le

/-- What a search that begins at a place comes to, and the directories that it looks into: those up
to the nearest settings file, or all of them. -/
inductive Stops (files : FileTree) (place : Place) : Option Place → List Place → Prop where
  | found (directory : Place) (visited : List Place) (nearest : IsNearest files place directory)
      (last : visited.getLast? = some directory) :
      Stops files place (some (directory ++ [fileName])) visited
  | nothing (fails : ∀ directory, directory <+: place → ¬ Holds files directory) :
      Stops files place none place.upwards

/-- Where a directory holds no settings file, the search that begins there stops where the one
stops that begins above it. -/
theorem Stops.up {found : Option Place} {visited : List Place}
    (stops : Stops files place found visited) {name : String}
    (fails : ¬ Holds files (place ++ [name])) :
    Stops files (place ++ [name]) found ((place ++ [name]) :: visited) := by
  cases stops with
  | found directory visited nearest last =>
    refine .found directory _ ⟨nearest.above.trans (List.prefix_append _ _), nearest.holds, ?_⟩ ?_
    · intro other above holds
      rcases List.prefix_concat_iff.mp above with rfl | above
      · exact absurd holds fails
      · exact nearest.deepest other above holds
    · rw [List.getLast?_cons, last]
      rfl
  | nothing none =>
    rw [← Place.upwards_concat]
    refine .nothing fun directory above => ?_
    rcases List.prefix_concat_iff.mp above with rfl | above
    · exact fails
    · exact none directory above

theorem Stops.eq_some_iff {found : Option Place} {visited : List Place}
    (stops : Stops files place found visited) (file : Place) :
    found = some file ↔
      ∃ directory, IsNearest files place directory ∧ directory ++ [fileName] = file := by
  cases stops with
  | found directory visited nearest _ =>
    rw [Option.some.injEq]
    constructor
    · rintro rfl
      exact ⟨directory, nearest, rfl⟩
    · rintro ⟨other, again, rfl⟩
      rw [nearest.unique again]
  | nothing fails =>
    refine iff_of_false nofun ?_
    rintro ⟨directory, nearest, -⟩
    exact fails directory nearest.above nearest.holds

theorem Stops.eq_none_iff {found : Option Place} {visited : List Place}
    (stops : Stops files place found visited) :
    found = none ↔ ∀ directory, directory <+: place → ¬ Holds files directory := by
  cases stops with
  | found directory visited nearest _ =>
    exact iff_of_false nofun fun fails => fails directory nearest.above nearest.holds
  | nothing fails => exact iff_of_true rfl fails

/-- A search that begins at a place, round by round. -/
structure Climbs (files : FileTree) (place : Place) (found : Option Place)
    (visited : List Place) : Prop where
  ends : rounds? List.length (fun directory => some (look files directory)) place = some found
  passes : passes List.length (fun directory => some (look files directory)) place = visited
  /-- The search goes up from the place. -/
  order : visited <+: place.upwards
  stops : Stops files place found visited

/-- A settings file in the first directory ends the search. -/
theorem climbs_of_holds (holds : Holds files place) :
    Climbs files place (some (place ++ [fileName])) [place] := by
  have done : look files place = .done (some (place ++ [fileName])) := if_pos holds
  have nearest : IsNearest files place place :=
    ⟨List.prefix_refl place, holds, fun _ above _ => above⟩
  refine ⟨rounds?_of_done (congrArg some done), passes_of_done (congrArg some done), ?_,
    .found place _ nearest rfl⟩
  induction place using List.reverseRecOn with
  | nil => exact List.prefix_refl _
  | append_singleton above name =>
    rw [Place.upwards_concat]
    exact List.prefix_append [above ++ [name]] _

/-- The root ends the search. -/
theorem climbs_root (fails : ¬ Holds files []) : Climbs files [] none [[]] := by
  have done : look files [] = .done none := by simp [look, fails]
  refine ⟨rounds?_of_done (congrArg some done), passes_of_done (congrArg some done),
    List.prefix_refl _, .nothing fun directory above => ?_⟩
  rw [List.prefix_nil.mp above]
  exact fails

/-- Without a settings file in the first directory the search is that of the directory above. -/
theorem Climbs.up {found : Option Place} {visited : List Place}
    (climbs : Climbs files place found visited) {name : String}
    (fails : ¬ Holds files (place ++ [name])) :
    Climbs files (place ++ [name]) found ((place ++ [name]) :: visited) := by
  have again : look files (place ++ [name]) = .again place := by simp [look, fails]
  have closer : place.length < (place ++ [name]).length := by simp
  refine ⟨?_, ?_, ?_, climbs.stops.up fails⟩
  · rw [rounds?_of_again (congrArg some again) closer, climbs.ends]
  · rw [passes_of_again (congrArg some again) closer, climbs.passes]
  · rw [Place.upwards_concat]
    exact (List.prefix_cons_inj _).mpr climbs.order

/-- The rounds of the search come to the nearest settings file. -/
theorem climbs_nearest? (files : FileTree) (place : Place) :
    ∃ visited, Climbs files place (nearest? files place.reverse) visited := by
  induction place using List.reverseRecOn with
  | nil =>
    rw [nearest?_nil]
    split
    · rename_i holds
      exact ⟨_, climbs_of_holds holds⟩
    · rename_i fails
      exact ⟨_, climbs_root fails⟩
  | append_singleton above name inductionHypothesis =>
    rw [nearest?_concat]
    split
    · rename_i holds
      exact ⟨_, climbs_of_holds holds⟩
    · rename_i fails
      obtain ⟨visited, climbs⟩ := inductionHypothesis
      exact ⟨_, climbs.up fails⟩

theorem localFile?_of_resolve {machine : Machine} {start : String} {node : Node}
    (resolved : machine.resolve start = .ok (place, node)) :
    localFile? machine start = (nearest? machine.files place.reverse).map Place.path := by
  rw [localFile?, resolved]

/-- The search for a settings file finds that in the deepest directory at or above the place that
it begins at, and finds nothing exactly if none of these directories holds one. It ends, looks into
no directory twice, and stops at the file or at the root. A directory holds one if a file of that
name stands in it, unless its path is refused for its length. -/
theorem finds_nearest {machine : Machine} {start : String} {node : Node}
    (resolved : machine.resolve start = .ok (place, node)) :
    (∀ path, localFile? machine start = some path ↔
      ∃ directory, IsNearest machine.files place directory ∧
        Place.path (directory ++ [fileName]) = path) ∧
    (localFile? machine start = none ↔
      ∀ directory, directory <+: place → ¬ Holds machine.files directory) ∧
    (∃ found visited, localFile? machine start = found.map Place.path ∧
      Climbs machine.files place found visited ∧ visited.Nodup) ∧
    ∀ directory, directory <+: place → Place.Proper directory →
      machine.files.follow [] (directory ++ [fileName]) = .ok (directory ++ [fileName]) →
      (Holds machine.files directory ↔
        FileTree.refusal? (Place.path (directory ++ [fileName])) = none ∧
          ∃ file, machine.files.node? (directory ++ [fileName]) = some (.file file)) := by
  obtain ⟨visited, climbs⟩ := climbs_nearest? machine.files place
  rw [localFile?_of_resolve resolved]
  refine ⟨fun path => ?_, ?_, ⟨_, visited, rfl, climbs, ?_⟩,
    fun _ _ proper reached => holds_iff proper reached⟩
  · rw [Option.map_eq_some_iff]
    constructor
    · rintro ⟨file, found, rfl⟩
      obtain ⟨directory, nearest, rfl⟩ := (climbs.stops.eq_some_iff file).mp found
      exact ⟨directory, nearest, rfl⟩
    · rintro ⟨directory, nearest, rfl⟩
      exact ⟨_, (climbs.stops.eq_some_iff _).mpr ⟨directory, nearest, rfl⟩, rfl⟩
  · rw [Option.map_eq_none_iff]
    exact climbs.stops.eq_none_iff
  · exact place.nodup_upwards.sublist climbs.order.sublist

/-- A settings file in the grandparent of the working directory, and a directory of that name in the
parent. -/
def nested : Machine where
  files := ⟨[(["a"], .directory), (["a", "b"], .directory), (["a", "b", "c"], .directory),
    (["a", fileName], .file ⟨[], false⟩), (["a", "b", fileName], .directory)]⟩
  directory := ["a", "b", "c"]
  environment := []
  clock := 0
  programs := fun _ => none
  refusals := .none
  scratchNames := toString
  scratchCount := 0
  alarm := fun message => [message]

/-- The search passes over the directory and does not go on to the root. -/
theorem finds_nearest_above_directory :
    nested.resolve "." = .ok (["a", "b", "c"], .directory) ∧
      localFile? nested "." = some "/a/.yarapiperc" := by
  have resolved : nested.resolve "." = .ok (["a", "b", "c"], .directory) := by decide +kernel
  have deepest : ∀ other ∈ Place.upwards ["a", "b", "c"],
      Holds nested.files other → other <+: ["a"] := by decide +kernel
  have nearest : IsNearest nested.files ["a", "b", "c"] ["a"] :=
    ⟨by decide, by decide +kernel, fun other above => deepest other (Place.mem_upwards.mpr above)⟩
  exact ⟨resolved, ((finds_nearest resolved).1 _).mpr ⟨["a"], nearest, by decide +kernel⟩⟩

end Settings

end YaraReport
