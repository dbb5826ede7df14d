/-
This file says what collections hold once they are made up. A list of paths to which one
path after the other was added holds every path that is the same as none before it, in the
order in which they were added. Entries that are kept in the order of their names hold what
was put under each name last, and nothing else changes with it. Before that stand a few
facts about any lists.
-/

import Mathlib.Data.List.Forall2
import Mathlib.Data.List.Induction
import Mathlib.Data.String.Basic
import YaraReport.Scanner

namespace YaraReport

/-! ### Any lists -/

theorem exists_forall₂ {Item Image : Type} (relation : Item → Image → Prop) (items : List Item)
    (each : ∀ item ∈ items, ∃ image, relation item image) :
    ∃ images, List.Forall₂ relation items images := by
  induction items with
  | nil => exact ⟨[], .nil⟩
  | cons item items inductionHypothesis =>
    obtain ⟨image, related⟩ := each item List.mem_cons_self
    obtain ⟨images, others⟩ :=
      inductionHypothesis fun other member => each other (List.mem_cons_of_mem _ member)
    exact ⟨image :: images, .cons related others⟩

theorem exists_mem_of_forall₂ {Item Image : Type} {relation : Item → Image → Prop}
    {items : List Item} {images : List Image} (related : List.Forall₂ relation items images) :
    ∀ item ∈ items, ∃ image ∈ images, relation item image := by
  induction related with
  | nil => exact fun _ member => absurd member List.not_mem_nil
  | cons first _ inductionHypothesis =>
    intro item member
    rcases List.mem_cons.mp member with rfl | later
    · exact ⟨_, List.mem_cons_self, first⟩
    · obtain ⟨image, inside, related⟩ := inductionHypothesis item later
      exact ⟨image, List.mem_cons_of_mem _ inside, related⟩

theorem not_mem_intercalate {Item : Type} {item separator : Item} {pieces : List (List Item)}
    (different : item ≠ separator) (outside : ∀ piece ∈ pieces, item ∉ piece) :
    item ∉ [separator].intercalate pieces := by
  induction pieces with
  | nil => exact List.not_mem_nil
  | cons piece pieces inductionHypothesis =>
    have first := outside piece List.mem_cons_self
    have others := inductionHypothesis fun other member =>
      outside other (List.mem_cons_of_mem _ member)
    cases pieces with
    | nil =>
      rw [List.intercalate_singleton]
      exact first
    | cons next pieces =>
      rw [List.intercalate_cons_cons, List.mem_append, List.mem_append, List.mem_singleton]
      rintro ((inside | same) | inside)
      · exact first inside
      · exact different same
      · exact others inside

/-! ### Paths, each once -/

/-- The paths that are the same as no path before them. -/
def distinctPaths (paths : List String) : List String := paths.eraseDupsBy Path.same

variable {paths added : List String} {path : String}

theorem Path.same_comm (first second : String) : Path.same first second = Path.same second first :=
  decide_eq_decide.mpr eq_comm

theorem foldl_addPath_eq_loop (paths added : List String) :
    added.foldl addPath paths = List.eraseDupsBy.loop Path.same added paths.reverse := by
  induction added generalizing paths with
  | nil => exact paths.reverse_reverse.symm
  | cons path added inductionHypothesis =>
    rw [List.foldl_cons, inductionHypothesis, List.eraseDupsBy.loop, List.any_reverse, addPath]
    cases known : paths.any (Path.same path) with
    | true => rw [if_pos rfl]
    | false => rw [if_neg Bool.false_ne_true, List.reverse_append, List.reverse_singleton,
        List.singleton_append]

/-- Adding paths one after the other leaves out the ones that are there already. -/
theorem foldl_addPath (added : List String) : added.foldl addPath [] = distinctPaths added :=
  foldl_addPath_eq_loop [] added

theorem distinctPaths_concat (paths : List String) (path : String) :
    distinctPaths (paths ++ [path]) = addPath (distinctPaths paths) path := by
  rw [← foldl_addPath, List.foldl_append, foldl_addPath]
  rfl

theorem mem_addPath {other : String} (member : other ∈ addPath paths path) :
    other ∈ paths ∨ other = path := by
  unfold addPath at member
  split at member
  · exact .inl member
  · exact (List.mem_append.mp member).imp_right List.mem_singleton.mp

theorem subset_addPath : paths ⊆ addPath paths path := by
  unfold addPath
  split
  · exact List.Subset.refl paths
  · exact List.subset_append_left paths [path]

theorem exists_same_addPath : ∃ kept ∈ addPath paths path, Path.same path kept = true := by
  unfold addPath
  split
  · rename_i known
    exact List.any_eq_true.mp known
  · exact ⟨path, List.mem_append_right paths List.mem_cons_self, decide_eq_true rfl⟩

theorem pairwise_addPath (distinct : paths.Pairwise fun first second => ¬ Path.same first second) :
    (addPath paths path).Pairwise fun first second => ¬ Path.same first second := by
  unfold addPath
  split
  · exact distinct
  · rename_i fresh
    refine List.pairwise_append.mpr ⟨distinct, List.pairwise_singleton _ _, ?_⟩
    intro kept member other same
    rw [List.mem_singleton.mp same, Path.same_comm]
    exact List.any_eq_false.mp (eq_false_of_ne_true fresh) kept member

/-- What stands in a list of paths that was made path by path. -/
structure Distinct (paths kept : List String) : Prop where
  subset : kept ⊆ paths
  complete : ∀ path ∈ paths, ∃ other ∈ kept, Path.same path other = true
  pairwise : kept.Pairwise fun first second => ¬ Path.same first second

theorem distinct_distinctPaths (paths : List String) : Distinct paths (distinctPaths paths) := by
  induction paths using List.reverseRecOn with
  | nil => exact ⟨List.Subset.refl [], fun _ member => (List.not_mem_nil member).elim, .nil⟩
  | append_singleton paths path inductionHypothesis =>
    obtain ⟨subset, complete, pairwise⟩ := inductionHypothesis
    rw [distinctPaths_concat]
    refine ⟨fun other member => ?_, fun other member => ?_, pairwise_addPath pairwise⟩
    · rcases mem_addPath member with before | rfl
      · exact List.mem_append_left _ (subset before)
      · exact List.mem_append_right paths List.mem_cons_self
    · rcases List.mem_append.mp member with before | last
      · obtain ⟨kept, own, same⟩ := complete other before
        exact ⟨kept, subset_addPath own, same⟩
      · rw [List.mem_singleton.mp last]
        exact exists_same_addPath

/-! ### Entries in the order of their names -/

variable {Value : Type}

/-- The names are in increasing order. -/
def Ordered (entries : List (String × Value)) : Prop :=
  entries.Pairwise fun first second => first.1 < second.1

/-- Entries after a change of what stands under a name, or of the nothing that does. -/
def alter (name : String) (change : Option Value → Value) :
    List (String × Value) → List (String × Value)
  | [] => [(name, change none)]
  | (other, own) :: rest =>
    if name < other then (name, change none) :: (other, own) :: rest
    else if name = other then (name, change (some own)) :: rest
    else (other, own) :: alter name change rest

variable {entries : List (String × Value)} {name other : String} {value : Value}
  {change : Option Value → Value}

theorem name_of_mem_alter {entry : String × Value} (member : entry ∈ alter name change entries) :
    entry.1 = name ∨ entry ∈ entries := by
  induction entries with
  | nil => exact .inl (congrArg Prod.fst (List.mem_singleton.mp member))
  | cons first rest inductionHypothesis =>
    rw [alter] at member
    split at member
    · exact (List.mem_cons.mp member).imp_left (congrArg Prod.fst)
    · split at member
      · exact (List.mem_cons.mp member).imp (congrArg Prod.fst) (List.mem_cons_of_mem _)
      · rcases List.mem_cons.mp member with rfl | later
        · exact .inr List.mem_cons_self
        · exact (inductionHypothesis later).imp_right (List.mem_cons_of_mem _)

theorem ordered_alter (ordered : Ordered entries) (name : String) (change : Option Value → Value) :
    Ordered (alter name change entries) := by
  induction entries with
  | nil => exact List.pairwise_singleton _ _
  | cons first rest inductionHypothesis =>
    obtain ⟨least, later⟩ := List.pairwise_cons.mp ordered
    rw [alter]
    split
    · rename_i less
      exact List.pairwise_cons.mpr ⟨List.forall_mem_cons.mpr
        ⟨less, fun entry behind => less.trans (least entry behind)⟩, ordered⟩
    · rename_i notLess
      split
      · rename_i same
        exact List.pairwise_cons.mpr ⟨fun entry member => same ▸ least entry member, later⟩
      · rename_i different
        refine List.pairwise_cons.mpr ⟨fun entry member => ?_, inductionHypothesis later⟩
        rcases name_of_mem_alter member with own | behind
        · exact own ▸ lt_of_le_of_ne (not_lt.mp notLess) fun same => different same.symm
        · exact least entry behind

theorem lookup_eq_none_of_lt (before : ∀ entry ∈ entries, name < entry.1) :
    entries.lookup name = none :=
  List.lookup_eq_none_iff.mpr fun entry member => bne_iff_ne.mpr (before entry member).ne

theorem lookup_alter_self (ordered : Ordered entries) (name : String)
    (change : Option Value → Value) :
    (alter name change entries).lookup name = some (change (entries.lookup name)) := by
  induction entries with
  | nil => exact List.lookup_cons_self
  | cons first rest inductionHypothesis =>
    obtain ⟨least, later⟩ := List.pairwise_cons.mp ordered
    rw [alter]
    split
    · rename_i less
      have before : ∀ entry ∈ first :: rest, name < entry.1 :=
        List.forall_mem_cons.mpr ⟨less, fun entry behind => less.trans (least entry behind)⟩
      rw [lookup_eq_none_of_lt before]
      exact List.lookup_cons_self
    · split
      · rename_i same
        rw [same, List.lookup_cons_self, List.lookup_cons_self]
      · rename_i different
        rw [List.lookup_cons, List.lookup_cons, beq_false_of_ne different]
        exact inductionHypothesis later

theorem Ordered.mem_iff (ordered : Ordered entries) :
    (name, value) ∈ entries ↔ entries.lookup name = some value := by
  induction entries with
  | nil => exact iff_of_false List.not_mem_nil fun found => by cases found
  | cons first rest inductionHypothesis =>
    obtain ⟨least, later⟩ := List.pairwise_cons.mp ordered
    rw [List.mem_cons, List.lookup_cons]
    cases same : name == first.1 with
    | true =>
      have absent : (name, value) ∉ rest := fun member =>
        (least _ member).ne (eq_of_beq same).symm
      rw [or_iff_left absent, Option.some_inj, Prod.ext_iff, and_iff_right (eq_of_beq same)]
      exact eq_comm
    | false =>
      have other : (name, value) ≠ first := fun whole =>
        ne_of_beq_false same (congrArg Prod.fst whole)
      rw [or_iff_right other]
      exact inductionHypothesis later

theorem lookup_alter_of_ne (entries : List (String × Value)) (change : Option Value → Value)
    (different : other ≠ name) :
    (alter name change entries).lookup other = entries.lookup other := by
  have passed : (other == name) = false := beq_false_of_ne different
  induction entries with
  | nil => rw [alter, List.lookup_cons, passed]
  | cons entry rest inductionHypothesis =>
    rw [alter]
    split
    · rw [List.lookup_cons, passed]
    · split
      · rename_i same
        rw [List.lookup_cons, List.lookup_cons, ← same, passed]
      · rw [List.lookup_cons, List.lookup_cons, inductionHypothesis]

end YaraReport
