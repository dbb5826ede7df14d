/-
This file says how a text is cut line by line. A text is one stretch without
newline, or such a stretch, a newline and another text; cutting follows that
recursion, which holds for bytes as for characters.
-/

import YaraReport.Text.Lines

namespace YaraReport.Text

theorem drop_past {Symbol : Type} (newline : Symbol) (line rest : List Symbol) :
    (line ++ newline :: rest).drop (line.length + 1) = rest := by
  rw [← List.drop_drop, List.drop_left]
  rfl

variable {Symbol : Type} [DecidableEq Symbol] {newline : Symbol}

/-- Every text is one stretch, or a stretch and a separator before such a text. -/
theorem stretches_induction (separator : Symbol) {motive : List Symbol → Prop}
    (last : ∀ stretch, separator ∉ stretch → motive stretch)
    (more : ∀ stretch rest, separator ∉ stretch → motive rest →
      motive (stretch ++ separator :: rest))
    (text : List Symbol) : motive text := by
  by_cases separated : separator ∈ text
  · obtain ⟨stretch, rest, whole, first⟩ := List.eq_append_cons_of_mem separated
    have shorter : rest.length < text.length := by
      rw [whole, List.length_append, List.length_cons]
      omega
    rw [whole]
    exact more stretch rest first (stretches_induction separator last more rest)
  · exact last text separated
termination_by text.length

theorem cutAt_of_not_mem {line : List Symbol} (whole : newline ∉ line) :
    cutAt newline line = ([], line) := by
  induction line with
  | nil => rfl
  | cons symbol line inductionHypothesis =>
    rw [List.mem_cons, not_or] at whole
    rw [cutAt, if_neg fun same => whole.1 same.symm, inductionHypothesis whole.2]

theorem cutAt_append {line : List Symbol} (whole : newline ∉ line) (rest : List Symbol) :
    cutAt newline (line ++ newline :: rest) =
      (line :: (cutAt newline rest).1, (cutAt newline rest).2) := by
  induction line with
  | nil => rw [List.nil_append, cutAt, if_pos rfl]
  | cons symbol line inductionHypothesis =>
    rw [List.mem_cons, not_or] at whole
    rw [List.cons_append, cutAt, if_neg fun same => whole.1 same.symm,
      inductionHypothesis whole.2]

/-- There is one stretch more than there are separators. -/
theorem length_splitOn (separator : Symbol) (text : List Symbol) :
    (text.splitOn separator).length = text.count separator + 1 := by
  induction text using stretches_induction separator with
  | last stretch whole => simp [List.splitOn_eq_singleton whole, List.count_eq_zero.mpr whole]
  | more stretch rest whole inductionHypothesis =>
    simp [List.splitOn_append_cons_self_of_not_mem whole, inductionHypothesis,
      List.count_eq_zero.mpr whole]

/-- Before a newline, all stretches of a text are finished. -/
theorem cutAt_stretches (newline : Symbol) (text rest : List Symbol) :
    cutAt newline (text ++ newline :: rest) =
      (text.splitOn newline ++ (cutAt newline rest).1, (cutAt newline rest).2) := by
  induction text using stretches_induction newline with
  | last stretch whole =>
    rw [cutAt_append whole, List.splitOn_eq_singleton whole, List.singleton_append]
  | more stretch others whole inductionHypothesis =>
    rw [List.append_assoc, List.cons_append, cutAt_append whole, inductionHypothesis,
      List.splitOn_append_cons_self_of_not_mem whole, List.cons_append]

/-- Rows that each end with a newline are cut into their stretches. -/
theorem cutAt_rows (newline : Symbol) (rows : List (List Symbol)) :
    cutAt newline (rows.flatMap (· ++ [newline])) = (rows.flatMap (List.splitOn newline), []) := by
  induction rows with
  | nil => rfl
  | cons row rows inductionHypothesis =>
    rw [List.flatMap_cons, List.append_assoc, List.singleton_append, cutAt_stretches,
      inductionHypothesis, List.flatMap_cons]

theorem splitLines_of_not_mem {line : List Symbol} (whole : newline ∉ line) (carriage : Symbol) :
    splitLines newline carriage line = if line.isEmpty then [] else [line] := by
  rw [splitLines, finishedLines, cutAt_of_not_mem whole]
  rfl

theorem splitLines_append {line : List Symbol} (whole : newline ∉ line) (carriage : Symbol)
    (rest : List Symbol) :
    splitLines newline carriage (line ++ newline :: rest) =
      dropCarriage carriage line :: splitLines newline carriage rest := by
  rw [splitLines, finishedLines, cutAt_append whole]
  rfl

theorem subset_dropCarriage (carriage : Symbol) (line : List Symbol) :
    dropCarriage carriage line ⊆ line := by
  unfold dropCarriage
  split
  · exact List.dropLast_subset line
  · exact List.Subset.refl line

/-- No line holds a newline. -/
theorem not_mem_of_mem_splitLines (carriage : Symbol) (text : List Symbol) :
    ∀ line ∈ splitLines newline carriage text, newline ∉ line := by
  induction text using stretches_induction newline with
  | last stretch whole =>
    intro line member
    rw [splitLines_of_not_mem whole] at member
    split at member
    · cases member
    · rw [List.mem_singleton.mp member]
      exact whole
  | more stretch rest whole inductionHypothesis =>
    intro line member
    rw [splitLines_append whole] at member
    rcases List.mem_cons.mp member with rfl | later
    · exact fun inside => whole (subset_dropCarriage carriage stretch inside)
    · exact inductionHypothesis line later

theorem newline_not_mem {text line : String} (member : line ∈ lines text) :
    '\n' ∉ line.toList := by
  obtain ⟨stretch, own, rfl⟩ := List.mem_map.mp member
  rw [String.toList_ofList]
  exact not_mem_of_mem_splitLines '\r' text.toList stretch own

/-- A text without newline is its own only line. -/
theorem lines_of_not_mem {line : String} (whole : '\n' ∉ line.toList)
    (nonempty : line.toList ≠ []) : lines line = [line] := by
  rw [lines, splitLines_of_not_mem whole, if_neg (by rwa [List.isEmpty_iff]), List.map_singleton,
    String.ofList_toList]

end YaraReport.Text
