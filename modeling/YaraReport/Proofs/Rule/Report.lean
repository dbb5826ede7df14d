/-
This file proves which lines the plain report on a rule is made of. Every item of the rule
is a row of its own, in the order header, metadata, strings with their matches. A row is
one line unless it holds a newline, and of what a run delivers only metadata values do:
the lines that a run reads hold none (`Reader.drawnFrom_of_delivered`), but resolving
escapes makes some.
-/

import Mathlib.Algebra.BigOperators.Group.List.Basic
import YaraReport.Display
import YaraReport.Proofs.Scan.Origins
import YaraReport.Proofs.Text.Backslashes

namespace YaraReport

/-! ### Texts without newline -/

/-- A text that holds no newline. -/
def Text.Unbroken (text : String) : Prop := '\n' ∉ text.toList

instance (text : String) : Decidable (Text.Unbroken text) :=
  inferInstanceAs (Decidable ('\n' ∉ text.toList))

namespace Text.Unbroken

theorem append_iff (first second : String) :
    Unbroken (first ++ second) ↔ Unbroken first ∧ Unbroken second := by
  simp [Unbroken]

theorem toString_int (number : Int) : Unbroken (toString number) := by
  cases number with
  | ofNat magnitude => exact not_mem_toString rfl magnitude
  | negSucc magnitude =>
    exact (append_iff "-" _).mpr ⟨by decide, not_mem_toString rfl (magnitude + 1)⟩

theorem offsetText (occurrence : Match) : Unbroken occurrence.offsetText := by
  have digits : ∀ character ∈ Text.hex occurrence.offset.toNat, character ≠ '\n' :=
    Text.forall_mem_toDigits (by decide) (by decide) _
  have outside : '\n' ∉ Text.hex occurrence.offset.toNat := fun inside => digits _ inside rfl
  simp [Unbroken, Match.offsetText, outside]

theorem intercalate {texts : List String} (each : ∀ text ∈ texts, Unbroken text) :
    Unbroken (",".intercalate texts) := by
  rw [Unbroken, String.toList_intercalate]
  refine not_mem_intercalate (by decide) fun row member => ?_
  obtain ⟨text, inside, rfl⟩ := List.mem_map.mp member
  exact each text inside

/-- A text that stands in lines without newline has none. -/
theorem of_standsIn {lines : List String} (whole : ∀ line ∈ lines, Unbroken line) {text : String}
    (stands : StandsIn lines text) : Unbroken text := by
  obtain ⟨line, member, inside⟩ := stands
  exact fun newline => whole line member (inside.subset newline)

/-- Rows without newline are lines. -/
theorem flatMap_splitOn {rows : List String} (each : ∀ row ∈ rows, Unbroken row) :
    (rows.flatMap fun row => row.toList.splitOn '\n') = rows.map String.toList := by
  induction rows with
  | nil => rfl
  | cons row rows inductionHypothesis =>
    obtain ⟨first, others⟩ := List.forall_mem_cons.mp each
    rw [List.flatMap_cons, List.splitOn_eq_singleton first, inductionHypothesis others]
    rfl

end Text.Unbroken

open Text (Unbroken)

/-! ### Newlines in metadata -/

/-- The number of newlines in a metadata value. -/
def MetaValue.newlines (value : MetaValue) : Nat := (value.text?.getD "").toList.count '\n'

theorem MetaValue.count_shown (value : MetaValue) :
    value.shown.toList.count '\n' = value.newlines := by
  cases value with
  | string text => simp [shown, newlines, text?]
  | integer number => exact List.count_eq_zero.mpr (Unbroken.toString_int number.toInt)
  | boolean truth => cases truth <;> rfl

/-- The lines of a metadata entry: one, and one more for each newline in its value. -/
theorem Meta.length_splitOn {entry : Meta} (unbroken : Unbroken entry.identifier) :
    (entry.reportLine.toList.splitOn '\n').length = 1 + entry.value.newlines := by
  rw [Text.length_splitOn, Nat.add_comm, ← entry.value.count_shown]
  simp [reportLine, List.count_eq_zero.mpr unbroken]

/-- The value of a metadata entry stands between quotes in one of some lines, without newline, but
with an escape that stands for one. -/
def Meta.EscapesNewline (lines : List String) (entry : Meta) : Prop :=
  ∃ raw : String, StandsIn lines ("\"" ++ raw ++ "\"") ∧
    entry.value = .string (Text.unescaped raw) ∧ Unbroken raw ∧
    ∃ front behind, raw.toList = front ++ '\\' :: 'n' :: behind ∧ Text.dangles front = false

namespace Rule

/-! ### Rows of a report -/

variable {rule : Rule} {target : Option String}

/-- The lines of a report: the header, those of each metadata entry, and each string, followed by
one line for each of its matches. -/
def lines (target : Option String) (rule : Rule) : List (List Char) :=
  (rule.headLine false target).toList ::
    ((rule.metadata.flatMap fun entry => entry.reportLine.toList.splitOn '\n') ++
      rule.strings.flatMap fun run => ("  " ++ run.identifier).toList ::
        run.occurrences.map fun occurrence => (occurrence.reportLine false).toList)

/-- The number of items that a report lists. -/
def itemCount (rule : Rule) : Nat :=
  1 + rule.metadata.length + rule.strings.length +
    (rule.strings.map fun run => run.occurrences.length).sum

/-- Only metadata values of a rule hold newlines. -/
structure Unbroken (rule : Rule) : Prop where
  identifier : Text.Unbroken rule.identifier
  tags : ∀ tag ∈ rule.tags, Text.Unbroken tag
  names : ∀ entry ∈ rule.metadata, Text.Unbroken entry.identifier
  strings : ∀ run ∈ rule.strings, Text.Unbroken run.identifier
  data : ∀ run ∈ rule.strings, ∀ occurrence ∈ run.occurrences, Text.Unbroken occurrence.value

theorem DrawnFrom.unbroken {lines : List String} (drawn : rule.DrawnFrom lines)
    (whole : ∀ line ∈ lines, Text.Unbroken line) : rule.Unbroken where
  identifier := .of_standsIn whole drawn.identifier
  tags tag member := .of_standsIn whole (drawn.tags tag member)
  names entry member := .of_standsIn whole (drawn.names entry member)
  strings run member := .of_standsIn whole (drawn.strings run member)
  data run member occurrence inside := .of_standsIn whole (drawn.data run member occurrence inside)

theorem Unbroken.headLine (unbroken : rule.Unbroken)
    (reachable : ∀ path ∈ target, Text.Unbroken path) :
    Text.Unbroken (rule.headLine false target) := by
  have bracketed : Text.Unbroken (" [" ++ ",".intercalate rule.tags ++ "]") := by
    simp only [Text.Unbroken.append_iff, Text.Unbroken.intercalate unbroken.tags]
    decide
  unfold Rule.headLine
  rw [Text.Unbroken.append_iff, Text.Unbroken.append_iff]
  refine ⟨⟨unbroken.identifier, ?_⟩, ?_⟩
  · split
    · decide
    · exact bracketed
  · cases target with
    | none => decide
    | some path => exact (Text.Unbroken.append_iff " " path).mpr ⟨by decide, reachable path rfl⟩

/-- The rows of a string and its matches hold no newline. -/
theorem Unbroken.reportLines (unbroken : rule.Unbroken) {run : StringMatch}
    (member : run ∈ rule.strings) : ∀ row ∈ run.reportLines false, Text.Unbroken row := by
  refine List.forall_mem_cons.mpr ⟨?_, fun row among => ?_⟩
  · exact (Text.Unbroken.append_iff "  " _).mpr ⟨by decide, unbroken.strings run member⟩
  · obtain ⟨occurrence, inside, rfl⟩ := List.mem_map.mp among
    have data := unbroken.data run member occurrence inside
    have offset := Text.Unbroken.offsetText occurrence
    simp only [Match.reportLine, Style.paint, Text.Unbroken.append_iff, Bool.false_eq_true,
      if_false, data, offset]
    decide

/-- A report is its lines, each with a newline after it. -/
theorem Unbroken.cutAt_report (unbroken : rule.Unbroken)
    (reachable : ∀ path ∈ target, Text.Unbroken path) :
    Text.cutAt '\n' (rule.report false target).toList = (rule.lines target, []) := by
  have rows : (rule.report false target).toList =
      ((rule.reportLines false target).map String.toList).flatMap (· ++ ['\n']) := by
    simp [report, String.toList_join, List.flatMap_map]
  have strings : (rule.strings.flatMap fun run =>
        (run.reportLines false).flatMap fun row => row.toList.splitOn '\n') =
      rule.strings.flatMap fun run => (run.reportLines false).map String.toList :=
    List.flatMap_congr fun run member =>
      Text.Unbroken.flatMap_splitOn (unbroken.reportLines member)
  rw [rows, Text.cutAt_rows, Rule.reportLines, lines]
  simp only [List.flatMap_map, List.flatMap_cons, List.flatMap_append, List.flatMap_assoc,
    List.splitOn_eq_singleton (unbroken.headLine reachable), strings]
  simp [StringMatch.reportLines, Style.paint, Function.comp_def]

/-- There are as many lines as items, and one more for each newline in a metadata value. -/
theorem Unbroken.length_lines (unbroken : rule.Unbroken) (target : Option String) :
    (rule.lines target).length =
      rule.itemCount + (rule.metadata.map fun entry => entry.value.newlines).sum := by
  have metadata : (rule.metadata.map fun entry =>
        (entry.reportLine.toList.splitOn '\n').length) =
      rule.metadata.map fun entry => 1 + entry.value.newlines :=
    List.map_congr_left fun entry member => Meta.length_splitOn (unbroken.names entry member)
  simp only [lines, itemCount, List.length_cons, List.length_append, List.length_flatMap, metadata,
    List.length_map, List.sum_map_add, List.map_const', List.sum_replicate_nat, mul_one]
  omega

/-! ### Reports on delivered rules -/

/-- What the plain report looks like on a rule that comes from lines without newline. -/
structure LaidOut (read : List String) (target : Option String) (rule : Rule) : Prop where
  /-- A newline ends each line, and nothing follows the last one. -/
  lines : Text.cutAt '\n' (rule.report false target).toList = (rule.lines target, [])
  entries : ∀ entry ∈ rule.metadata,
    (entry.reportLine.toList.splitOn '\n').length = 1 + entry.value.newlines
  length : (rule.lines target).length =
    rule.itemCount + (rule.metadata.map fun entry => entry.value.newlines).sum
  single : (rule.lines target).length = rule.itemCount ↔
    ∀ entry ∈ rule.metadata, entry.value.newlines = 0
  escaped : ∀ entry ∈ rule.metadata, entry.value.newlines ≠ 0 → entry.EscapesNewline read

/-- A newline in a metadata value that comes from lines without one was written as an escape. -/
theorem DrawnFrom.escaped {lines : List String} (drawn : rule.DrawnFrom lines)
    (whole : ∀ line ∈ lines, Text.Unbroken line) {entry : Meta} (member : entry ∈ rule.metadata)
    (several : entry.value.newlines ≠ 0) : entry.EscapesNewline lines := by
  unfold Meta.EscapesNewline
  cases same : entry.value with
  | string value =>
    obtain ⟨raw, stands, rfl⟩ := drawn.values entry member value same
    have quoted := Text.Unbroken.of_standsIn whole stands
    rw [Text.Unbroken.append_iff, Text.Unbroken.append_iff] at quoted
    have unbroken := quoted.1.2
    refine ⟨raw, stands, rfl, unbroken, Text.exists_escape_of_newline unbroken ?_⟩
    rw [same] at several
    simpa [MetaValue.newlines, MetaValue.text?, Text.unescaped, List.count_eq_zero] using several
  | integer | boolean =>
    rw [same] at several
    exact absurd rfl several

/-- The plain report on a rule that is delivered from lines without newline has a line for each of
its items, in their order: the header, each metadata entry, each string before its matches. Only a
metadata entry may take more lines, one more for each newline that escapes in its value stand
for, as that is quoted in one of the lines. -/
theorem reports_line_by_line (lines : List String) (rule : Rule) (target : Option String)
    (whole : ∀ line ∈ lines, Text.Unbroken line) (delivered : Reader.IsDelivered lines rule)
    (reachable : ∀ path ∈ target, Text.Unbroken path) : rule.LaidOut lines target := by
  have drawn := Reader.drawnFrom_of_delivered delivered
  have unbroken := drawn.unbroken whole
  refine ⟨unbroken.cutAt_report reachable,
    fun entry member => Meta.length_splitOn (unbroken.names entry member),
    unbroken.length_lines target, ?_, fun entry member => drawn.escaped whole member⟩
  rw [unbroken.length_lines target, Nat.add_eq_left, List.sum_eq_zero_iff_forall_eq_nat,
    List.forall_mem_map]

/-- Two matches of one string and one of another, and a value with an escaped newline. -/
theorem reports_line_by_line_mixed :
    Reader.IsDelivered ["A [x] [k=\"a\\nb\",n=-1] t", "0x1f:$a: c", "0x20:$a: d", "0x1:$b: e"]
        ⟨"A", ["x"], [⟨"k", .string "a\nb"⟩, ⟨"n", .integer (-1)⟩],
          [⟨"$a", [⟨31, "c"⟩, ⟨32, "d"⟩]⟩, ⟨"$b", [⟨1, "e"⟩]⟩]⟩ ∧
      (Text.cutAt '\n' (Rule.report false (some "/t")
        ⟨"A", ["x"], [⟨"k", .string "a\nb"⟩, ⟨"n", .integer (-1)⟩],
          [⟨"$a", [⟨31, "c"⟩, ⟨32, "d"⟩]⟩, ⟨"$b", [⟨1, "e"⟩]⟩]⟩).toList).1.map String.ofList =
        ["A [x] /t", "  k = \"a", "b\"", "  n = -1", "  $a", "    0x1f: c", "    0x20: d", "  $b",
          "    0x1: e"] := by
  have delivered : Reader.IsDelivered
      ["A [x] [k=\"a\\nb\",n=-1] t", "0x1f:$a: c", "0x20:$a: d", "0x1:$b: e"]
      ⟨"A", ["x"], [⟨"k", .string "a\nb"⟩, ⟨"n", .integer (-1)⟩],
        [⟨"$a", [⟨31, "c"⟩, ⟨32, "d"⟩]⟩, ⟨"$b", [⟨1, "e"⟩]⟩]⟩ :=
    .inr ⟨[_], by decide +kernel, List.mem_singleton_self _⟩
  have laidOut := reports_line_by_line _ _ (some "/t") (by decide +kernel) delivered
    (by decide +kernel)
  refine ⟨delivered, ?_⟩
  rw [laidOut.lines]
  decide +kernel

/-- An escape in a metadata value makes a line that is not an item of the report. -/
theorem report_broken_by_escape :
    (∀ line ∈ ["A [] [k=\"a\\nb\"] t"], Text.Unbroken line) ∧
      Reader.IsDelivered ["A [] [k=\"a\\nb\"] t"] ⟨"A", [], [⟨"k", .string "a\nb"⟩], []⟩ ∧
      Text.Unbroken "t" ∧
      (Text.cutAt '\n' (Rule.report false (some "t")
        ⟨"A", [], [⟨"k", .string "a\nb"⟩], []⟩).toList).1.length ≠ 1 + 1 + 0 + 0 := by
  refine ⟨by decide +kernel, .inr ⟨[_], ?_, List.mem_singleton_self _⟩, by decide, ?_⟩
  · decide +kernel
  · decide +kernel

end Rule

end YaraReport
