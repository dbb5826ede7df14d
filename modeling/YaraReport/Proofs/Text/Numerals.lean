/-
This file proves that numerals are read back as the numbers they were written
for: in any base whose digits a reader knows, hence in decimal with and without
a sign, and in hexadecimal in either case of the letters.
-/

import YaraReport.Text.Numeral

namespace YaraReport.Text

/-! ### Digits of any base -/

/-- The numeral of a number is its last digit, after the numeral of the rest if there is one. -/
theorem toDigits_induction {base : Nat} (proper : 1 < base) {motive : Nat → List Char → Prop}
    (last : ∀ digit < base, motive digit [Nat.digitChar digit])
    (more : ∀ value digit, digit < base → motive value (Nat.toDigits base value) →
      motive (base * value + digit) (Nat.toDigits base value ++ [Nat.digitChar digit]))
    (value : Nat) : motive value (Nat.toDigits base value) := by
  by_cases small : value < base
  · rw [Nat.toDigits_of_lt_base small]
    exact last value small
  · have large : base ≤ value := Nat.le_of_not_lt small
    have shorter : value / base < value :=
      Nat.div_lt_self (Nat.lt_of_lt_of_le (Nat.zero_lt_of_lt proper) large) proper
    have digit : value % base < base := Nat.mod_lt _ (Nat.zero_lt_of_lt proper)
    have step := more _ _ digit (toDigits_induction proper last more (value / base))
    rw [Nat.div_add_mod] at step
    rw [Nat.toDigits_of_base_le proper large]
    exact step
termination_by value

/-- What holds of every digit holds of every character of a numeral. -/
theorem forall_mem_toDigits {base : Nat} (proper : 1 < base) {holds : Char → Prop}
    (digits : ∀ digit < base, holds (Nat.digitChar digit)) (value : Nat) :
    ∀ character ∈ Nat.toDigits base value, holds character := by
  induction value using toDigits_induction proper with
  | last digit small =>
    intro character member
    rw [List.mem_singleton.mp member]
    exact digits digit small
  | more value digit small inductionHypothesis =>
    intro character member
    rcases List.mem_append.mp member with former | last
    · exact inductionHypothesis character former
    · rw [List.mem_singleton.mp last]
      exact digits digit small

/-- A number is written in digits only. -/
theorem not_mem_toString {character : Char} (other : character.isDigit = false) (number : Nat) :
    character ∉ (toString number).toList := by
  intro inside
  rw [Nat.toString_eq_repr, Nat.toList_repr] at inside
  exact Bool.false_ne_true
    (other.symm.trans (Nat.isDigit_of_mem_toDigits (by decide) (by decide) inside))

/-- A reader that knows the digits of a base knows the numerals of that base. -/
theorem digitsValue?_toDigits {base : Nat} (proper : 1 < base) {digit? : Char → Option Nat}
    (known : ∀ digit < base, digit? (Nat.digitChar digit) = some digit) (value : Nat) :
    digitsValue? base digit? (Nat.toDigits base value) = some value := by
  have digits : ((Nat.toDigits base value).mapM digit?).map (positional base) = some value := by
    induction value using toDigits_induction proper with
    | last digit small =>
      rw [List.mapM_cons, known digit small, List.mapM_nil]
      show some (0 * base + digit) = some digit
      rw [Nat.zero_mul, Nat.zero_add]
    | more value digit small inductionHypothesis =>
      obtain ⟨former, read, rfl⟩ := Option.map_eq_some_iff.mp inductionHypothesis
      rw [List.mapM_append, read, List.mapM_cons, known digit small, List.mapM_nil]
      show some (positional base (former ++ [digit])) = _
      rw [positional, List.foldl_append, Nat.mul_comm base]
      rfl
  have nonempty : (Nat.toDigits base value).isEmpty = false :=
    List.isEmpty_eq_false_iff.mpr Nat.toDigits_ne_nil
  rw [digitsValue?, nonempty]
  exact digits

/-! ### Decimal and hexadecimal numerals -/

theorem decimal?_decimal (value : Nat) : decimal? (decimal value) = some value :=
  digitsValue?_toDigits (by decide) (by decide) value

theorem hex?_hex (value : Nat) : hex? (hex value) = some value :=
  digitsValue?_toDigits (by decide) (by decide) value

/-- A hexadecimal numeral, its letters in upper or lower case. -/
def hexIn (capitals : Bool) (value : Nat) : List Char :=
  if capitals then (hex value).map Char.toUpper else hex value

theorem hex?_hexIn (capitals : Bool) (value : Nat) : hex? (hexIn capitals value) = some value := by
  cases capitals with
  | false => exact hex?_hex value
  | true =>
    have upper : digitsValue? 16 (hexDigit? ∘ Char.toUpper) (hex value) = some value :=
      digitsValue?_toDigits (by decide) (by decide) value
    show hex? ((hex value).map Char.toUpper) = some value
    rw [hex?, digitsValue?, List.isEmpty_map, List.mapM_map]
    exact upper

theorem forall_mem_hexIn {holds : Char → Prop} (lower : ∀ digit < 16, holds (Nat.digitChar digit))
    (upper : ∀ digit < 16, holds (Nat.digitChar digit).toUpper) (capitals : Bool) (value : Nat) :
    ∀ character ∈ hexIn capitals value, holds character := by
  have both : ∀ digit ∈ hex value, holds digit ∧ holds digit.toUpper :=
    forall_mem_toDigits (by decide) (fun digit small => ⟨lower digit small, upper digit small⟩) value
  intro character member
  cases capitals with
  | false => exact (both character member).1
  | true =>
    obtain ⟨digit, inside, rfl⟩ := List.mem_map.mp member
    exact (both digit inside).2

/-! ### Numerals with a sign -/

/-- No numeral without marker has one. -/
theorem unsigned?_decimal (value : Nat) : unsigned? (decimal value) = some value := by
  have digits : ∀ character ∈ decimal value, character ≠ 'x' ∧ character ≠ 'X' :=
    forall_mem_toDigits (by decide) (by decide) value
  have read := decimal?_decimal value
  unfold unsigned?
  split
  · rename_i numeral
    exact absurd rfl (digits 'x' (numeral ▸ List.mem_cons_of_mem _ List.mem_cons_self)).1
  · rename_i numeral
    exact absurd rfl (digits 'X' (numeral ▸ List.mem_cons_of_mem _ List.mem_cons_self)).2
  · exact read

/-- The decimal numeral of an integer, with a minus sign before that of a negative one. -/
def signedDecimal (value : Int) : List Char :=
  (toString value).toList

theorem signedDecimal_ofNat (value : Nat) : signedDecimal (Int.ofNat value) = decimal value :=
  Nat.toList_repr

theorem signedDecimal_negSucc (value : Nat) :
    signedDecimal (Int.negSucc value) = '-' :: decimal (value + 1) := by
  show ("-" ++ Nat.repr (value + 1)).toList = _
  rw [String.toList_append, Nat.toList_repr]
  rfl

theorem signed?_signedDecimal (value : Int) : signed? (signedDecimal value) = some value := by
  cases value with
  | ofNat value =>
    have digits : ∀ character ∈ decimal value, character ≠ '-' :=
      forall_mem_toDigits (by decide) (by decide) value
    rw [signedDecimal_ofNat, signed?]
    · rw [unsigned?_decimal]
      rfl
    · intro tail front
      exact absurd rfl (digits '-' (front ▸ List.mem_cons_self))
  | negSucc value =>
    rw [signedDecimal_negSucc, signed?, unsigned?_decimal]
    rfl

theorem signedDecimal_ne_nil (value : Int) : signedDecimal value ≠ [] := by
  cases value with
  | ofNat value =>
    rw [signedDecimal_ofNat]
    exact Nat.toDigits_ne_nil
  | negSucc value =>
    rw [signedDecimal_negSucc]
    exact List.cons_ne_nil _ _

theorem forall_mem_signedDecimal {holds : Char → Prop} (sign : holds '-')
    (digits : ∀ digit < 10, holds (Nat.digitChar digit)) (value : Int) :
    ∀ character ∈ signedDecimal value, holds character := by
  cases value with
  | ofNat value =>
    rw [signedDecimal_ofNat]
    exact forall_mem_toDigits (by decide) digits value
  | negSucc value =>
    rw [signedDecimal_negSucc, List.forall_mem_cons]
    exact ⟨sign, forall_mem_toDigits (by decide) digits (value + 1)⟩

end YaraReport.Text
