/-
This file proves that metadata integers are decoded exactly. The magnitude of a
numeral is held in a signed word of 128 bits, and it is negated there. A
magnitude that fits that word is no obstacle to negation, and one that does not
fit is far outside the machine integers on either side of zero, so the detour
through the wide word changes nothing: a numeral is decoded where its value is a
machine integer.
-/

import YaraReport.Proofs.Text.Places
import YaraReport.Scan.Header

namespace YaraReport.Header

/-! ### Wide words -/

theorem toInt_ofNat_wide {value : Nat} (small : value < 0x80000000000000000000000000000000) :
    (BitVec.ofNat 128 value).toInt = value := by
  have same : (BitVec.ofNat 128 value).toNat = value := by
    rw [BitVec.toNat_ofNat]
    omega
  rw [BitVec.toInt_eq_toNat_of_lt, same]
  rw [same]
  omega

/-- A magnitude is not the one wide word that has no negative. -/
theorem negOverflow_ofNat_wide {value : Nat}
    (small : value < 0x80000000000000000000000000000000) :
    (BitVec.ofNat 128 value).negOverflow = false := by
  rw [BitVec.negOverflow, toInt_ofNat_wide small, beq_eq_false_iff_ne]
  omega

theorem toInt_neg_wide {value : Nat} (small : value < 0x80000000000000000000000000000000) :
    (-BitVec.ofNat 128 value).toInt = -(value : Int) := by
  rw [BitVec.toInt_neg_of_not_negOverflow, toInt_ofNat_wide small]
  rw [negOverflow_ofNat_wide small]
  exact Bool.false_ne_true

theorem magnitude?_eq_some_iff (digits : List Char) (wide : BitVec 128) :
    magnitude? digits = some wide ↔
      ∃ value, Text.unsigned? digits = some value ∧
        value < 0x80000000000000000000000000000000 ∧ BitVec.ofNat 128 value = wide := by
  unfold magnitude?
  cases Text.unsigned? digits with
  | none => simp only [reduceCtorEq, false_and, exists_const]
  | some value =>
    simp only [Option.ite_none_right_eq_some, Option.some.injEq, exists_eq_left']

/-- The negation of a magnitude never overflows. -/
theorem not_negOverflow_magnitude {digits : List Char} {wide : BitVec 128}
    (read : magnitude? digits = some wide) : wide.negOverflow = false := by
  obtain ⟨value, -, small, rfl⟩ := (magnitude?_eq_some_iff digits wide).mp read
  exact negOverflow_ofNat_wide small

theorem narrow?_eq_some_iff (wide : BitVec 128) (value : Int64) :
    narrow? wide = some value ↔ -0x8000000000000000 ≤ wide.toInt ∧
      wide.toInt < 0x8000000000000000 ∧ Int64.ofInt wide.toInt = value := by
  simp only [narrow?, Bool.and_eq_true, decide_eq_true_eq, Option.ite_none_right_eq_some,
    Option.some.injEq, and_assoc]

/-! ### Numerals -/

theorem integer?_eq_some_iff (text : String) (value : Int64) :
    integer? text = some value ↔
      ∃ number, Text.signed? text.toList = some number ∧ -0x8000000000000000 ≤ number ∧
        number < 0x8000000000000000 ∧ Int64.ofInt number = value := by
  unfold integer?
  rw [Text.signed?_eq]
  cases (Text.splitSign text.toList).1 <;>
  cases read : Text.unsigned? (Text.splitSign text.toList).2 with
  | none => simp [magnitude?, read]
  | some magnitude =>
    by_cases small : magnitude < 0x80000000000000000000000000000000
    · have wide : magnitude? (Text.splitSign text.toList).2 = some (BitVec.ofNat 128 magnitude) :=
        (magnitude?_eq_some_iff _ _).mpr ⟨magnitude, read, small, rfl⟩
      simp [wide, narrow?_eq_some_iff, toInt_ofNat_wide small, toInt_neg_wide small]
    · have tooWide : magnitude? (Text.splitSign text.toList).2 = none := by
        rw [magnitude?, read]
        exact if_neg small
      simp only [tooWide, reduceCtorEq, false_iff, Option.map_some, Option.some.injEq]
      rintro ⟨number, rfl, least, most, -⟩
      simp only [if_false, if_true] at least most
      omega

end YaraReport.Header
