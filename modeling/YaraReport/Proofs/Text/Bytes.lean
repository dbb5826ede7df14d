/-
This file proves that texts are in the same order as their bytes. A character that
comes first has a first byte that is less, or both begin with the same byte and the rest
decides; so characters of different length never compare by accident.
-/

import Mathlib.Data.String.Basic

namespace YaraReport.Text

/-- The bytes that a text is stored as. -/
def bytes (text : String) : List UInt8 := text.toUTF8.data.toList

theorem bytes_eq (text : String) : bytes text = text.toList.flatMap String.utf8EncodeChar := by
  rw [bytes, String.toUTF8, ← String.utf8Encode_toList, List.utf8Encode,
    List.toList_data_toByteArray]

theorem toNat_lt (character : Char) : character.val.toNat < 0x110000 := by
  rcases character.valid with low | high
  · exact Nat.lt_trans low (by decide)
  · exact high.2

/-- Of two characters the first byte that differs tells which is less, whatever follows them. -/
theorem utf8EncodeChar_append_lt {first second : Char} (less : first < second)
    (rest others : List UInt8) :
    String.utf8EncodeChar first ++ rest < String.utf8EncodeChar second ++ others := by
  have less : first.val.toNat < second.val.toNat := less
  have bound := toNat_lt second
  have places : ∀ value,
      value / 4096 = value / 64 / 64 ∧ value / 262144 = value / 64 / 64 / 64 := by omega
  have tails : ∀ value, (value % 64 + 128) % 2 ^ 8 = value % 64 + 128 := by omega
  unfold String.utf8EncodeChar
  generalize first.val.toNat = low at *
  generalize second.val.toNat = high at *
  -- The cases are the numbers of bytes that the two take. The one that is less takes no more.
  dsimp only
  split <;> split <;> try omega
  all_goals (repeat' split) <;> try omega
  all_goals
    simp only [List.cons_append, List.nil_append, List.cons_lt_cons_iff, UInt8.lt_iff_toNat_lt,
      ← UInt8.toNat_inj, UInt8.toNat_ofNat', places, tails]
    omega

theorem flatMap_utf8EncodeChar_lt {first second : List Char} (less : first < second) :
    first.flatMap String.utf8EncodeChar < second.flatMap String.utf8EncodeChar := by
  induction less with
  | @nil character rest =>
    rw [List.flatMap_nil, List.flatMap_cons]
    have filled : String.utf8EncodeChar character ≠ [] :=
      List.ne_nil_of_length_pos (by rw [String.length_utf8EncodeChar]; exact character.utf8Size_pos)
    obtain ⟨byte, bytes, whole⟩ := List.exists_cons_of_ne_nil filled
    rw [whole]
    exact List.nil_lt_cons _ _
  | rel less =>
    rw [List.flatMap_cons, List.flatMap_cons]
    exact utf8EncodeChar_append_lt less _ _
  | cons rest inductionHypothesis =>
    rw [List.flatMap_cons, List.flatMap_cons]
    exact List.Lex.append_left _ inductionHypothesis _

theorem bytes_lt_of_lt {first second : String} (less : first < second) :
    bytes first < bytes second := by
  rw [bytes_eq, bytes_eq]
  exact flatMap_utf8EncodeChar_lt (String.lt_iff_toList_lt.mp less)

end YaraReport.Text
