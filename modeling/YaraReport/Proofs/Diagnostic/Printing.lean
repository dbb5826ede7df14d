/-
This file proves that a diagnostic with its place survives being shown and read
again. Its file name has no opening parenthesis and, as its message, no blank at
either end; nothing else is asked of them, so that both may hold colons, closing
parentheses and numbers, or nothing at all. What a line reads as is such a
diagnostic as soon as its severity and its line number are known.
-/

import YaraReport.Proofs.Diagnostic.Marks
import YaraReport.Proofs.Text.Numerals

namespace YaraReport.Diagnostic

/-- A diagnostic of which every part is known, and which stands in the form that it is read in. -/
structure Placed (diagnostic : Diagnostic) : Prop where
  fileName : ∃ file, diagnostic.fileName = some file ∧ '(' ∉ file.toList ∧ Text.Unpadded file.toList
  line : ∃ line, diagnostic.line = some line
  severity : diagnostic.severity ≠ .unknown
  message : Text.Unpadded diagnostic.message.toList

/-! ### Line numbers -/

/-- The numeral of a line number holds no mark and no blank. -/
theorem plain_decimal (value : Nat) : ∀ character ∈ Text.decimal value,
    character ≠ ':' ∧ character ≠ ')' ∧ Text.isBlank character = false :=
  Text.forall_mem_toDigits (by decide) (by decide) value

theorem not_mem_numbered (value : Nat) : ':' ∉ Text.decimal value ++ [')'] := by
  intro member
  rcases List.mem_append.mp member with inside | last
  · exact (plain_decimal value ':' inside).1 rfl
  · exact absurd last (by decide)

/-- The parenthesis after a line number is dropped and nothing else. -/
theorem trim_filter_numbered (value : Nat) :
    Text.trim ((Text.decimal value ++ [')']).filter (· ≠ ')')) = Text.decimal value := by
  have kept : (Text.decimal value).filter (· ≠ ')') = Text.decimal value :=
    List.filter_eq_self.mpr fun character member =>
      decide_eq_true (plain_decimal value character member).2.1
  have visible : Text.Unpadded (Text.decimal value) :=
    ⟨fun character first => (plain_decimal value character (List.mem_of_mem_head? first)).2.2,
      fun character last => (plain_decimal value character (List.mem_of_getLast? last)).2.2⟩
  rw [List.filter_append, kept]
  exact (congrArg Text.trim (List.append_nil _)).trans (Text.trim_of_unpadded visible)

theorem lineNumber?_decimal (number : UInt32) :
    Draft.lineNumber? (Text.decimal number.toNat) = some number := by
  rw [lineNumber?_eq_some_iff]
  exact ⟨_, .inl rfl, (Text.digitsValue?_iff 10 _ _).mp (Text.decimal?_decimal number.toNat)⟩

/-! ### Severities -/

theorem not_mem_graded (severity : Severity) : ':' ∉ ' ' :: severity.shown.toList := by
  cases severity <;> decide

theorem severityOf_shown {severity : Severity} (known : severity ≠ .unknown) :
    Draft.severityOf (Text.trim (' ' :: severity.shown.toList)) = severity := by
  cases severity with
  | error => decide
  | warning => decide
  | unknown => exact absurd rfl known

/-! ### Shown and read again -/

theorem toList_shown (file : String) (number : UInt32) (severity : Severity) (message : String) :
    (shown ⟨some file, some number, severity, message⟩).toList =
      file.toList ++ '(' :: ((Text.decimal number.toNat ++ [')']) ++
        ':' :: ((' ' :: severity.shown.toList) ++ ':' :: ' ' :: message.toList)) := by
  have digits : (lineText number).toList = Text.decimal number.toNat := Nat.toList_repr
  simp only [shown, place, String.toList_append, digits]
  simp

theorem Placed.ofLine_shown {diagnostic : Diagnostic} (placed : Placed diagnostic) :
    ofLine diagnostic.shown = diagnostic := by
  obtain ⟨fileName, line, severity, message⟩ := diagnostic
  obtain ⟨⟨file, rfl, outside, unpadded⟩, ⟨number, rfl⟩, known, unpaddedMessage⟩ := placed
  have blank : Text.isBlank ' ' = true := by decide
  have first := splitOnce?_append outside
    ((Text.decimal number.toNat ++ [')']) ++
        ':' :: ((' ' :: severity.shown.toList) ++ ':' :: ' ' :: message.toList))
  rw [← toList_shown] at first
  rw [ofLine_of_cut_thrice first (splitOnce?_append (not_mem_numbered _) _)
      (splitOnce?_append (not_mem_graded severity) _),
    trim_filter_numbered, lineNumber?_decimal, severityOf_shown known, Text.trim_cons blank,
    Text.trim_of_unpadded unpadded, Text.trim_of_unpadded unpaddedMessage, String.ofList_toList,
    String.ofList_toList]

/-- What a line reads as stands in the form that it is read in. -/
theorem placed_ofLine {line : String} (known : (ofLine line).severity ≠ .unknown)
    (number : ∃ number, (ofLine line).line = some number) : Placed (ofLine line) := by
  have denotes := denotes_ofLine line
  cases marks : graded? line.toList with
  | none => exact absurd (denotes.incomplete marks).1 known
  | some parts =>
    obtain ⟨level, message⟩ := parts
    obtain ⟨_, second, _⟩ := Option.bind_eq_some_iff.mp marks
    obtain ⟨⟨file, _⟩, first, _⟩ := Option.bind_eq_some_iff.mp second
    have outside : '(' ∉ file := (splitOnce?_eq_some_iff.mp first).1
    refine ⟨⟨String.ofList (Text.trim file), ?_, ?_, ?_⟩, number, known, ?_⟩
    · rw [denotes.fileName, first]
      rfl
    · rw [String.toList_ofList]
      exact fun member => outside (Text.mem_of_mem_trim member)
    · rw [String.toList_ofList]
      exact Text.unpadded_trim file
    · rw [(denotes.complete level message marks).2.2, String.toList_ofList]
      exact Text.unpadded_trim message

/-- A diagnostic with its place reads back from what it is shown as, and so does every diagnostic
that a line reads as with its severity and its line number. -/
theorem shown_reads_back :
    (∀ diagnostic : Diagnostic, Placed diagnostic → ofLine diagnostic.shown = diagnostic) ∧
    ∀ line : String, (ofLine line).severity ≠ .unknown →
      (∃ number, (ofLine line).line = some number) →
        Placed (ofLine line) ∧ ofLine (ofLine line).shown = ofLine line := by
  refine ⟨fun diagnostic placed => placed.ofLine_shown, fun line known number => ?_⟩
  have placed := placed_ofLine known number
  exact ⟨placed, placed.ofLine_shown⟩

/-- Colons and closing parentheses in a file name, marks in a message, and parts without text. -/
theorem shown_reads_back_punctuated :
    ofLine "rules) 7: x.yar(4294967295): warning: error: see a(2): b" =
      ⟨some "rules) 7: x.yar", some 0xFFFFFFFF, .warning, "error: see a(2): b"⟩ ∧
    ofLine "(0): error: " = ⟨some "", some 0, .error, ""⟩ := by
  constructor
  · exact shown_reads_back.1
      ⟨some "rules) 7: x.yar", some 0xFFFFFFFF, .warning, "error: see a(2): b"⟩
      ⟨⟨_, rfl, by decide, by decide⟩, ⟨_, rfl⟩, by decide, by decide⟩
  · exact shown_reads_back.1 ⟨some "", some 0, .error, ""⟩
      ⟨⟨_, rfl, by decide, by decide⟩, ⟨_, rfl⟩, by decide, by decide⟩

end YaraReport.Diagnostic
