/-
This file proves that nothing is lost where results are printed as JSON: from
the text of a rule, or of a list of rules, diagnostics or reports, everything in
it can be told. Metadata values of different kinds are told apart although no name says
of which kind they are, an absent file or line is no present one, and nothing
that a string holds ends it.

The main statement is `results_told_apart`. It rests on two facts: texts tell
JSON values apart, and JSON values tell results apart.
-/

import Mathlib.Data.List.Basic
import YaraReport.Proofs.Json.Values
import YaraReport.Session

namespace YaraReport

open Function (Injective)

/-! ### Results as JSON values -/

theorem Json.texts_injective : Injective Json.texts := by
  have text : Injective Json.text := fun _ _ same => Json.text.inj same
  intro texts others same
  exact text.list_map (Json.list.inj same)

/-- An absent value is no present one, unless a present one may be `null`. -/
theorem Json.optional_injective {Value : Type} {json : Value → Json} (injective : Injective json)
    (present : ∀ value, json value ≠ .null) : Injective (optional json) := by
  intro value other same
  cases value with
  | none =>
    cases other with
    | none => rfl
    | some other => exact absurd same.symm (present other)
  | some value =>
    cases other with
    | none => exact absurd same (present value)
    | some other => exact congrArg some (injective same)

theorem MetaValue.json_injective : Injective MetaValue.json := by
  intro value other same
  cases value with
  | string text =>
    cases other with
    | string other => exact congrArg string (Json.text.inj same)
    | integer other | boolean other => cases same
  | integer value =>
    cases other with
    | integer other => exact congrArg integer (Int64.toInt_inj.mp (Json.integer.inj same))
    | string other | boolean other => cases same
  | boolean value =>
    cases other with
    | boolean other => exact congrArg boolean (Json.boolean.inj same)
    | string other | integer other => cases same

theorem Meta.json_injective : Injective Meta.json := by
  rintro ⟨identifier, value⟩ ⟨other, second⟩ same
  simp only [Meta.json, Json.record.injEq, List.cons.injEq, Prod.mk.injEq, Json.text.injEq,
    true_and, and_true] at same
  obtain ⟨rfl, values⟩ := same
  rw [MetaValue.json_injective values]

theorem Match.json_injective : Injective Match.json := by
  rintro ⟨offset, value⟩ ⟨other, second⟩ same
  simp only [Match.json, Json.record.injEq, List.cons.injEq, Prod.mk.injEq, Json.text.injEq,
    Json.integer.injEq, true_and, and_true] at same
  obtain ⟨offsets, rfl⟩ := same
  rw [UInt64.toNat_inj.mp (Int.ofNat.inj offsets)]

theorem StringMatch.json_injective : Injective StringMatch.json := by
  rintro ⟨identifier, occurrences⟩ ⟨other, second⟩ same
  simp only [StringMatch.json, Json.record.injEq, List.cons.injEq, Prod.mk.injEq, Json.text.injEq,
    Json.list.injEq, true_and, and_true] at same
  obtain ⟨rfl, matches_⟩ := same
  rw [Match.json_injective.list_map matches_]

theorem Rule.json_injective : Injective Rule.json := by
  rintro ⟨identifier, tags, metadata, strings⟩ ⟨other, labels, entries, runs⟩ same
  simp only [Rule.json, Json.record.injEq, List.cons.injEq, Prod.mk.injEq, Json.text.injEq,
    Json.list.injEq, true_and, and_true] at same
  obtain ⟨rfl, sameTags, sameMetadata, sameStrings⟩ := same
  rw [Json.texts_injective sameTags, Meta.json_injective.list_map sameMetadata,
    StringMatch.json_injective.list_map sameStrings]

theorem Severity.name_injective : Injective Severity.name := by
  intro severity other same
  cases severity <;> cases other <;> first | rfl | exact absurd same (by decide)

theorem TargetReport.json_injective : Injective TargetReport.json := by
  rintro ⟨target, rules, skipped, warnings⟩ ⟨other, second, count, lines⟩ same
  simp only [TargetReport.json, Json.record.injEq, List.cons.injEq, Prod.mk.injEq,
    Json.text.injEq, Json.list.injEq, Json.integer.injEq, true_and, and_true] at same
  obtain ⟨rfl, sameRules, sameSkipped, sameWarnings⟩ := same
  rw [Rule.json_injective.list_map sameRules, Int.ofNat.inj sameSkipped,
    Json.texts_injective sameWarnings]

theorem Json.optional_text_injective : Injective (optional text) :=
  optional_injective (fun _ _ same => text.inj same) fun _ same => by cases same

theorem Json.optional_line_injective :
    Injective (optional fun line : UInt32 => integer line.toNat) :=
  optional_injective (fun _ _ same => UInt32.toNat_inj.mp (Int.ofNat.inj (integer.inj same)))
    fun _ same => by cases same

theorem Diagnostic.json_injective : Injective Diagnostic.json := by
  rintro ⟨fileName, line, severity, message⟩ ⟨other, number, grade, words⟩ same
  simp only [Diagnostic.json, Json.record.injEq, List.cons.injEq, Prod.mk.injEq, Json.text.injEq,
    true_and, and_true] at same
  obtain ⟨sameName, sameLine, sameSeverity, rfl⟩ := same
  rw [Json.optional_text_injective sameName, Json.optional_line_injective sameLine,
    Severity.name_injective sameSeverity]

namespace Json

/-! ### Values as texts -/

theorem write_injective (layout : Layout) (depth : Nat) : Injective (write layout depth) := by
  intro value other same
  have ends : EndsNumeral [] := fun _ member => by cases member
  exact (write_append_inj layout depth value other ends ends (congrArg (· ++ []) same)).1

theorem compact_injective : Injective compact := fun _ _ same =>
  write_injective .compact 0 (String.ofList_injective same)

theorem indented_injective : Injective indented := fun _ _ same =>
  write_injective .indented 0 (String.ofList_injective same)

theorem list_map_injective {Value : Type} {json : Value → Json} (injective : Injective json) :
    Injective fun values : List Value => list (values.map json) := fun _ _ same =>
  injective.list_map (list.inj same)

/-- The text between the quotes of a string can stand there: no quote in it closes the string. -/
theorem isClosed_flatMap_escape (text : List Char) :
    Token.isClosed (text.flatMap escape) = true := by
  induction text with
  | nil => rfl
  | cons character text inductionHypothesis =>
    rw [List.flatMap_cons]
    unfold escape
    split
    iterate 7 exact inductionHypothesis
    rename_i noQuote noSlash _ _ _ _ _
    split
    · have digits : ∀ digit < 16, hexDigit digit ≠ '"' ∧ hexDigit digit ≠ '\\' := by decide
      obtain ⟨highQuote, highSlash⟩ := digits (character.toNat / 16) (by omega)
      obtain ⟨lowQuote, lowSlash⟩ := digits (character.toNat % 16) (by omega)
      show Token.isClosed ('0' :: '0' :: hexDigit _ :: hexDigit _ :: text.flatMap escape) = true
      rw [Text.isClosed_cons (by decide) (by decide), Text.isClosed_cons (by decide) (by decide),
        Text.isClosed_cons highQuote highSlash, Text.isClosed_cons lowQuote lowSlash]
      exact inductionHypothesis
    · rw [List.singleton_append, Text.isClosed_cons noQuote noSlash]
      exact inductionHypothesis

/-- Nothing is lost in JSON. Different rules, different lists of rules, of diagnostics or of
reports on targets, different metadata values and different file names or lines, of which one may
be absent, are never written alike; and the first quote in a string that no backslash takes along
is the one that closes it. -/
theorem results_told_apart :
    (∀ rule other : Rule, rule.json.compact = other.json.compact ↔ rule = other) ∧
    (∀ rules others : List Rule,
      (list (rules.map Rule.json)).indented = (list (others.map Rule.json)).indented ↔
        rules = others) ∧
    (∀ diagnostics others : List Diagnostic,
      Session.diagnosticsJson diagnostics = Session.diagnosticsJson others ↔
        diagnostics = others) ∧
    (∀ reports others : List TargetReport,
      (list (reports.map TargetReport.json)).indented =
        (list (others.map TargetReport.json)).indented ↔ reports = others) ∧
    (∀ (layout : Layout) (depth : Nat),
      (∀ value other : MetaValue,
        write layout depth value.json = write layout depth other.json ↔ value = other) ∧
      (∀ name other : Option String,
        write layout depth (optional text name) = write layout depth (optional text other) ↔
          name = other) ∧
      ∀ line other : Option UInt32,
        write layout depth (optional (fun line => integer line.toNat) line) =
          write layout depth (optional (fun line => integer line.toNat) other) ↔ line = other) ∧
    ∀ (text : String) (rest : List Char), ∃ raw, quoted text = '"' :: (raw ++ ['"']) ∧
      Token.closingQuote? (raw ++ '"' :: rest) = some (raw, rest) := by
  refine ⟨fun _ _ => (compact_injective.comp Rule.json_injective).eq_iff,
    fun _ _ => (indented_injective.comp (list_map_injective Rule.json_injective)).eq_iff,
    fun _ _ => (indented_injective.comp (list_map_injective Diagnostic.json_injective)).eq_iff,
    fun _ _ => (indented_injective.comp (list_map_injective TargetReport.json_injective)).eq_iff,
    fun layout depth => ⟨fun _ _ => ?_, fun _ _ => ?_, fun _ _ => ?_⟩, fun text rest => ?_⟩
  · exact ((write_injective layout depth).comp MetaValue.json_injective).eq_iff
  · exact ((write_injective layout depth).comp optional_text_injective).eq_iff
  · exact ((write_injective layout depth).comp optional_line_injective).eq_iff
  · exact ⟨text.toList.flatMap escape, rfl,
      Token.closingQuote?_of_isClosed _ rest (isClosed_flatMap_escape text.toList)⟩

/-- A string that looks like a truth value is written in quotes. -/
example : (MetaValue.json (.string "true")).compact = "\"true\"" ∧
    (MetaValue.json (.boolean true)).compact = "true" := by decide

end Json

end YaraReport
