/-
This file says which number a numeral denotes, without saying how it is read:
every digit counts for its place, an optional minus sign turns the sum, and a
marker before the digits says whether they are hexadecimal. The main statements
are that readers accept exactly these numerals, each with its one number.
-/

import Mathlib.Data.Nat.Digits.Defs
import YaraReport.Text.Numeral

namespace YaraReport.Text

/-! ### Digits -/

section Digits

variable {digit? : Char → Option Nat}

theorem mapM_eq_some_filterMap {text : List Char}
    (digits : ∀ character ∈ text, (digit? character).isSome = true) :
    text.mapM digit? = some (text.filterMap digit?) := by
  induction text with
  | nil => rfl
  | cons character rest inductionHypothesis =>
    obtain ⟨first, others⟩ := List.forall_mem_cons.mp digits
    obtain ⟨digit, known⟩ := Option.isSome_iff_exists.mp first
    rw [List.mapM_cons, known, inductionHypothesis others, List.filterMap_cons_some known]
    rfl

theorem isSome_of_mapM {text : List Char} {values : List Nat}
    (digits : text.mapM digit? = some values) :
    ∀ character ∈ text, (digit? character).isSome = true := by
  induction text generalizing values with
  | nil => exact fun _ member => absurd member List.not_mem_nil
  | cons character rest inductionHypothesis =>
    rw [List.mapM_cons] at digits
    cases known : digit? character with
    | none =>
      rw [known] at digits
      cases digits
    | some digit =>
      rw [known] at digits
      cases others : rest.mapM digit? with
      | none =>
        rw [others] at digits
        cases digits
      | some values =>
        exact List.forall_mem_cons.mpr ⟨Option.isSome_iff_exists.mpr ⟨digit, known⟩,
          inductionHypothesis others⟩

/-- A run of digits denotes a number when it is not empty and all of it are digits. -/
theorem digitsValue?_eq_some_iff (base : Nat) (text : List Char) (value : Nat) :
    digitsValue? base digit? text = some value ↔
      text ≠ [] ∧ (∀ character ∈ text, (digit? character).isSome = true) ∧
        positional base (text.filterMap digit?) = value := by
  unfold digitsValue?
  split
  · rename_i empty
    refine iff_of_false (fun same => by cases same) fun ⟨nonempty, _⟩ => ?_
    exact nonempty (List.isEmpty_iff.mp empty)
  · rename_i nonempty
    rw [List.isEmpty_iff] at nonempty
    rw [Option.map_eq_some_iff]
    constructor
    · rintro ⟨values, digits, rfl⟩
      have known := isSome_of_mapM digits
      rw [mapM_eq_some_filterMap known, Option.some.injEq] at digits
      exact ⟨nonempty, known, by rw [digits]⟩
    · rintro ⟨-, known, same⟩
      exact ⟨_, mapM_eq_some_filterMap known, same⟩

/-! ### The number of a run of digits -/

/-- A run of digits and the number it denotes, in which every digit counts for its place. -/
structure IsDigits (base : Nat) (digit? : Char → Option Nat) (text : List Char) (value : Nat) :
    Prop where
  nonempty : text ≠ []
  digits : ∀ character ∈ text, (digit? character).isSome = true
  value : Nat.ofDigits base (text.filterMap digit?).reverse = value

/-- Multiplying up from the first digit counts every digit for its place. -/
theorem positional_eq_ofDigits (base : Nat) (digits : List Nat) :
    positional base digits = Nat.ofDigits base digits.reverse := by
  rw [Nat.ofDigits_eq_foldr, List.foldr_reverse, positional]
  simp only [Nat.cast_id, Nat.mul_comm base, Nat.add_comm]

/-- A run of digits is read where it denotes a number, as that number. -/
theorem digitsValue?_iff (base : Nat) (text : List Char) (value : Nat) :
    digitsValue? base digit? text = some value ↔ IsDigits base digit? text value := by
  rw [digitsValue?_eq_some_iff, positional_eq_ofDigits]
  exact ⟨fun ⟨nonempty, digits, value⟩ => ⟨nonempty, digits, value⟩,
    fun ⟨nonempty, digits, value⟩ => ⟨nonempty, digits, value⟩⟩

end Digits

/-- Decimal digits with an optional plus sign before them, and the number they denote. -/
def PlusDecimal (text : List Char) (value : Nat) : Prop :=
  ∃ digits, (text = digits ∨ text = '+' :: digits) ∧ IsDigits 10 decimalDigit? digits value

theorem plusDecimal?_eq_some_iff (text : List Char) (value : Nat) :
    plusDecimal? text = some value ↔ PlusDecimal text value := by
  unfold plusDecimal? PlusDecimal
  split
  · rename_i digits
    rw [decimal?, digitsValue?_iff]
    constructor
    · exact fun read => ⟨digits, .inr rfl, read⟩
    · rintro ⟨others, rfl | same, read⟩
      · exact absurd (read.digits '+' List.mem_cons_self) (by decide)
      · rw [(List.cons.inj same).2]
        exact read
  · rename_i noPlus
    rw [decimal?, digitsValue?_iff]
    constructor
    · exact fun read => ⟨text, .inl rfl, read⟩
    · rintro ⟨digits, rfl | same, read⟩
      · exact read
      · exact absurd same (noPlus digits)

/-! ### Numerals with a sign and a marker -/

theorem signed?_eq (text : List Char) :
    signed? text = (unsigned? (splitSign text).2).map fun value : Nat =>
      if (splitSign text).1 then -(value : Int) else (value : Int) := by
  unfold splitSign
  split
  · rename_i digits
    rw [signed?]
    cases unsigned? digits <;> rfl
  · rename_i noSign
    rw [signed?]
    · cases unsigned? text <;> rfl
    · exact noSign

/-- How the digits of a numeral are written: decimal, or hexadecimal after a marker. -/
inductive Radix where
  | decimal
  | hexadecimal (capital : Bool)
  deriving DecidableEq

namespace Radix

def base : Radix → Nat
  | .decimal => 10
  | .hexadecimal _ => 16

def digit? : Radix → Char → Option Nat
  | .decimal => decimalDigit?
  | .hexadecimal _ => hexDigit?

/-- What stands before the digits. -/
def marker : Radix → List Char
  | .decimal => []
  | .hexadecimal false => ['0', 'x']
  | .hexadecimal true => ['0', 'X']

end Radix

/-- A numeral by its parts. -/
structure Numeral where
  negative : Bool
  radix : Radix
  digits : List Char
  deriving DecidableEq

namespace Numeral

/-- The text of a numeral. -/
def written (numeral : Numeral) : List Char :=
  (if numeral.negative then ['-'] else []) ++ (numeral.radix.marker ++ numeral.digits)

/-- A numeral with at least one digit and nothing but digits after its marker. -/
structure WellFormed (numeral : Numeral) : Prop where
  nonempty : numeral.digits ≠ []
  digits : ∀ character ∈ numeral.digits, (numeral.radix.digit? character).isSome = true

/-- The number that the digits denote. -/
def magnitude (numeral : Numeral) : Nat :=
  Nat.ofDigits numeral.radix.base (numeral.digits.filterMap numeral.radix.digit?).reverse

/-- The number that the numeral denotes. -/
def value (numeral : Numeral) : Int :=
  if numeral.negative then -(numeral.magnitude : Int) else numeral.magnitude

/-- The numeral of a text without sign. -/
def ofUnsigned (negative : Bool) : List Char → Numeral
  | '0' :: 'x' :: digits => ⟨negative, .hexadecimal false, digits⟩
  | '0' :: 'X' :: digits => ⟨negative, .hexadecimal true, digits⟩
  | digits => ⟨negative, .decimal, digits⟩

/-- The parts of a text, if it is a numeral. -/
def ofText (text : List Char) : Numeral :=
  ofUnsigned (splitSign text).1 (splitSign text).2

/-! ### The numeral of a text -/

theorem written_ofUnsigned (negative : Bool) (text : List Char) :
    (ofUnsigned negative text).written = (if negative then ['-'] else []) ++ text := by
  unfold ofUnsigned
  split <;> rfl

theorem written_ofText (text : List Char) : (ofText text).written = text := by
  rw [ofText, written_ofUnsigned]
  fun_cases splitSign text <;> rfl

theorem negative_ofUnsigned (negative : Bool) (text : List Char) :
    (ofUnsigned negative text).negative = negative := by
  unfold ofUnsigned
  split <;> rfl

/-- No letter of a marker is a decimal digit, so the parts of a numeral without sign are found in
its text. -/
theorem WellFormed.ofUnsigned_eq {numeral : Numeral} (wellFormed : numeral.WellFormed) :
    ofUnsigned numeral.negative (numeral.radix.marker ++ numeral.digits) = numeral := by
  obtain ⟨negative, _ | ⟨_ | _⟩, digits⟩ := numeral
  · have plain (letter : Char) (member : letter ∈ digits) : (decimalDigit? letter).isSome = true :=
      wellFormed.digits letter member
    show ofUnsigned negative digits = _
    unfold ofUnsigned
    split
    · exact absurd (plain 'x' (List.mem_cons_of_mem _ List.mem_cons_self)) (by decide)
    · exact absurd (plain 'X' (List.mem_cons_of_mem _ List.mem_cons_self)) (by decide)
    · rfl
  · rfl
  · rfl

/-- No sign is a digit either, so the parts of a numeral are found in its text. -/
theorem WellFormed.ofText_written {numeral : Numeral} (wellFormed : numeral.WellFormed) :
    ofText numeral.written = numeral := by
  have parts : splitSign numeral.written =
      (numeral.negative, numeral.radix.marker ++ numeral.digits) := by
    obtain ⟨_ | _, radix, digits⟩ := numeral
    · show splitSign (radix.marker ++ digits) = _
      unfold splitSign
      split
      · rename_i rest front
        obtain _ | ⟨_ | _⟩ := radix <;> cases front
        have digit : (decimalDigit? '-').isSome = true := wellFormed.digits _ List.mem_cons_self
        exact absurd digit (by decide)
      · rfl
    · rfl
  rw [ofText, parts]
  exact wellFormed.ofUnsigned_eq

/-- A text without sign is read where its parts are those of a numeral, as its magnitude. -/
theorem unsigned?_eq_some_iff (negative : Bool) (text : List Char) (value : Nat) :
    unsigned? text = some value ↔
      (ofUnsigned negative text).WellFormed ∧ (ofUnsigned negative text).magnitude = value := by
  have digits (numeral : Numeral) :
      digitsValue? numeral.radix.base numeral.radix.digit? numeral.digits = some value ↔
        numeral.WellFormed ∧ numeral.magnitude = value := by
    rw [digitsValue?_iff]
    exact ⟨fun ⟨nonempty, known, value⟩ => ⟨⟨nonempty, known⟩, value⟩,
      fun ⟨⟨nonempty, known⟩, value⟩ => ⟨nonempty, known, value⟩⟩
  unfold ofUnsigned
  split
  · exact digits ⟨negative, .hexadecimal false, _⟩
  · exact digits ⟨negative, .hexadecimal true, _⟩
  · rename_i noMarker noCapital
    rw [unsigned?]
    · exact digits ⟨negative, .decimal, _⟩
    · exact noMarker
    · exact noCapital

/-- The numeral of a text without minus sign is read without one. -/
theorem unsigned?_of_not_negative {text : List Char} (wellFormed : (ofText text).WellFormed)
    (plain : (ofText text).negative = false) : unsigned? text = some (ofText text).magnitude := by
  have whole : splitSign text = (false, text) := by
    rw [ofText, negative_ofUnsigned] at plain
    fun_cases splitSign text
    · cases plain
    · rfl
  rw [ofText, whole] at wellFormed ⊢
  exact (unsigned?_eq_some_iff false text _).mpr ⟨wellFormed, rfl⟩

/-- A text is read where its parts are those of a numeral, as the number of that. -/
theorem signed?_eq_some_iff (text : List Char) (value : Int) :
    signed? text = some value ↔ (ofText text).WellFormed ∧ (ofText text).value = value := by
  simp only [signed?_eq, Option.map_eq_some_iff, unsigned?_eq_some_iff (splitSign text).1,
    Numeral.value, ofText, negative_ofUnsigned, and_assoc, exists_and_left, exists_eq_left']

end Numeral

end YaraReport.Text
