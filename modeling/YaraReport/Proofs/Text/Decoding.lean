/-
This file proves that decoding commutes with cutting into lines: the lines of a
byte sequence, each decoded on its own, are the lines of the decoded whole.

What carries the proof is that an ASCII byte is never part of a longer
character. Inside a character the machine awaits a byte from 0x80 on, so an
ASCII byte ends a broken character and is then read as itself, whatever came
before it. And a character that is read from several bytes is none of ASCII,
because the machine only ever begins one whose value reaches 0x80.
-/

import YaraReport.Child.Stream
import YaraReport.Proofs.Text.Lines

namespace YaraReport.Text.Utf8

/-! ### What the machine keeps -/

/-- Inside a character no ASCII byte is awaited, and the bits read so far suffice for a value
from 0x80 on. -/
structure Unfinished.Proper (unfinished : Unfinished) : Prop where
  high : 0x80 ≤ unfinished.low.toNat
  enough : (if unfinished.owed ≤ 1 then 0x80 else 2) ≤
    unfinished.bits * 64 + (unfinished.low.toNat - 0x80)

/-- A state that the machine can reach. -/
def Reached (state : State) : Prop := ∀ unfinished ∈ state, unfinished.Proper

theorem reached_none : Reached none := fun _ member => by cases member

theorem reached_some {unfinished : Unfinished} (proper : unfinished.Proper) :
    Reached (some unfinished) := fun _ member => by cases member; exact proper

/-- A character that one byte completes is the byte itself in ASCII, or else one of a value from
0x80 on. -/
def Completes (byte : UInt8) (character : Option Char) : Prop :=
  ∀ read ∈ character, byte ≤ 0x7F ∧ read = Char.ofNat byte.toNat ∨
    ∃ value, 0x80 ≤ value ∧ read = Char.ofNat value

theorem completes_none (byte : UInt8) : Completes byte none := fun _ member => by cases member

/-- What one step does: it stays within the states that can be reached, what it yields is
completed by its byte, and between characters it has yielded something. -/
structure Sound (byte : UInt8) (result : State × Yield) : Prop where
  reached : Reached result.1
  completes : ∀ character ∈ result.2, Completes byte character
  yields : result.1 = none → result.2 ≠ []

theorem sound_broken (byte : UInt8) : Sound byte (none, [none]) where
  reached := reached_none
  completes character member := by
    rw [List.mem_singleton.mp member]
    exact completes_none byte
  yields _ := List.cons_ne_nil _ _

theorem sound_read {byte : UInt8} {read : Char} (completes : Completes byte (some read)) :
    Sound byte (none, [some read]) where
  reached := reached_none
  completes character member := by
    rw [List.mem_singleton.mp member]
    exact completes
  yields _ := List.cons_ne_nil _ _

theorem sound_owed (byte : UInt8) {owed bits : Nat} {low high : UInt8} (tail : 0x80 ≤ low.toNat)
    (enough : (if owed ≤ 1 then 0x80 else 2) ≤ bits * 64 + (low.toNat - 0x80)) :
    Sound byte (some ⟨owed, low, high, bits⟩, []) where
  reached := reached_some ⟨tail, enough⟩
  completes _ member := by cases member
  yields between := by cases between

theorem lead_sound (byte : UInt8) : Sound byte (lead byte) := by
  unfold lead
  split
  · rename_i ascii
    exact sound_read fun _ member => by cases member; exact .inl ⟨ascii, rfl⟩
  split
  · exact sound_broken byte
  rename_i least
  rw [UInt8.not_lt, UInt8.le_iff_toNat_le] at least
  have least : 0xC2 ≤ byte.toNat := least
  split
  · refine sound_owed byte (by decide) (Nat.le_add_right_of_le ?_)
    split <;> omega
  rename_i two
  rw [UInt8.not_le, UInt8.lt_iff_toNat_lt] at two
  have two : 0xDF < byte.toNat := two
  split
  · exact sound_owed byte (by decide) (by decide)
  rename_i notLeast
  have notLeast : byte.toNat ≠ 0xE0 := fun same => notLeast (UInt8.toNat_inj.mp same)
  split
  · exact sound_owed byte (by decide) (by decide)
  split
  · refine sound_owed byte (by decide) (Nat.le_add_right_of_le ?_)
    split <;> omega
  rename_i three
  rw [UInt8.not_le, UInt8.lt_iff_toNat_lt] at three
  have three : 0xEF < byte.toNat := three
  split
  · exact sound_owed byte (by decide) (by decide)
  rename_i notLeast
  have notLeast : byte.toNat ≠ 0xF0 := fun same => notLeast (UInt8.toNat_inj.mp same)
  split
  · refine sound_owed byte (by decide) (Nat.le_add_right_of_le ?_)
    split <;> omega
  split
  · exact sound_owed byte (by decide) (by decide)
  · exact sound_broken byte

theorem step_sound {state : State} (reached : Reached state) (byte : UInt8) :
    Sound byte (step state byte) := by
  cases state with
  | none => exact lead_sound byte
  | some unfinished =>
    have proper := reached unfinished rfl
    unfold step
    dsimp only
    split
    · rename_i inside
      rw [Bool.and_eq_true, decide_eq_true_eq, decide_eq_true_eq, UInt8.le_iff_toNat_le] at inside
      have enough := proper.enough
      split
      · rename_i last
        rw [if_pos last] at enough
        have large : 0x80 ≤ unfinished.bits * 64 + (byte.toNat - 0x80) := by omega
        exact sound_read fun _ member => .inr ⟨_, large, (Option.some.inj member).symm⟩
      · rename_i more
        rw [if_neg more] at enough
        refine sound_owed byte (by decide) (Nat.le_add_right_of_le ?_)
        split <;> omega
    · have sound := lead_sound byte
      exact ⟨sound.reached, List.forall_mem_cons.mpr ⟨completes_none byte, sound.completes⟩,
        fun _ => List.cons_ne_nil _ _⟩

/-! ### ASCII -/

/-- An ASCII byte ends what is unfinished and is read as itself. -/
theorem step_ascii {state : State} (reached : Reached state) {byte : UInt8}
    (ascii : byte ≤ 0x7F) :
    step state byte = (none, flush state ++ [some (Char.ofNat byte.toNat)]) := by
  cases state with
  | none => exact if_pos ascii
  | some unfinished =>
    have high := (reached unfinished rfl).high
    have outside : ¬ unfinished.low ≤ byte := by
      rw [UInt8.le_iff_toNat_le] at ascii ⊢
      have ascii : byte.toNat ≤ 0x7F := ascii
      omega
    rw [step, decide_eq_false outside, lead, if_pos ascii]
    rfl

/-- Decoding starts anew at an ASCII byte. -/
theorem decodeFrom_append_ascii {state : State} (reached : Reached state) (former : List UInt8)
    {byte : UInt8} (ascii : byte ≤ 0x7F) (latter : List UInt8) :
    decodeFrom state (former ++ byte :: latter) =
      decodeFrom state former ++ some (Char.ofNat byte.toNat) :: decodeFrom none latter := by
  induction former generalizing state with
  | nil =>
    show (step state byte).2 ++ decodeFrom (step state byte).1 latter = flush state ++ _
    rw [step_ascii reached ascii, List.append_assoc]
    rfl
  | cons first former inductionHypothesis =>
    rw [List.cons_append, decodeFrom, decodeFrom, List.append_assoc,
      inductionHypothesis (step_sound reached first).reached]

/-- The last byte completes the last character, or breaks it. -/
theorem exists_last {state : State} (reached : Reached state) (former : List UInt8)
    (byte : UInt8) :
    ∃ front last, decodeFrom state (former ++ [byte]) = front ++ [last] ∧
      Completes byte last := by
  induction former generalizing state with
  | nil =>
    have sound := step_sound reached byte
    rw [List.nil_append, decodeFrom, decodeFrom]
    cases after : (step state byte).1 with
    | none =>
      rcases List.eq_nil_or_concat (step state byte).2 with empty | ⟨front, last, whole⟩
      · exact absurd empty (sound.yields after)
      · rw [List.concat_eq_append] at whole
        refine ⟨front, last, ?_, sound.completes last ?_⟩
        · rw [whole, flush, List.append_nil]
        · rw [whole]
          exact List.mem_append_right _ List.mem_cons_self
    | some unfinished => exact ⟨_, none, rfl, completes_none byte⟩
  | cons first former inductionHypothesis =>
    obtain ⟨front, last, whole, completes⟩ :=
      inductionHypothesis (step_sound reached first).reached
    refine ⟨(step state first).2 ++ front, last, ?_, completes⟩
    rw [List.cons_append, decodeFrom, whole, List.append_assoc]

/-- Every character is completed by one of the bytes. -/
theorem exists_byte {state : State} (reached : Reached state) {bytes : List UInt8} {read : Char}
    (member : some read ∈ decodeFrom state bytes) :
    ∃ byte ∈ bytes, Completes byte (some read) := by
  induction bytes generalizing state with
  | nil => cases state <;> simp [decodeFrom, flush] at member
  | cons byte bytes inductionHypothesis =>
    have sound := step_sound reached byte
    rw [decodeFrom, List.mem_append] at member
    rcases member with now | later
    · exact ⟨byte, List.mem_cons_self, sound.completes _ now⟩
    · obtain ⟨other, inside, completes⟩ := inductionHypothesis sound.reached later
      exact ⟨other, List.mem_cons_of_mem _ inside, completes⟩

theorem toNat_ofNat_of_ascii {value : Nat} (ascii : value < 0x80) :
    (Char.ofNat value).toNat = value :=
  congrArg Char.toNat (dif_pos (.inl (Nat.lt_trans ascii (by decide))))

theorem toNat_ofNat_of_large {value : Nat} (large : 0x80 ≤ value) :
    (Char.ofNat value).toNat = 0 ∨ 0x80 ≤ (Char.ofNat value).toNat := by
  by_cases valid : value.isValidChar
  · have same : (Char.ofNat value).toNat = value := congrArg Char.toNat (dif_pos valid)
    rw [same]
    exact .inr large
  · exact .inl (congrArg Char.toNat (dif_neg valid))

/-- A character of ASCII other than zero is completed by its own byte only. -/
theorem eq_of_completes {other byte : UInt8} (ascii : byte ≤ 0x7F) (positive : 0 < byte)
    (completes : Completes other (some (Char.ofNat byte.toNat))) : other = byte := by
  rw [UInt8.le_iff_toNat_le] at ascii
  rw [UInt8.lt_iff_toNat_lt] at positive
  have ascii : byte.toNat < 0x80 := Nat.lt_succ_of_le ascii
  have positive : 0 < byte.toNat := positive
  have own := toNat_ofNat_of_ascii ascii
  rcases completes _ rfl with ⟨small, same⟩ | ⟨value, large, same⟩
  · rw [UInt8.le_iff_toNat_le] at small
    rw [same, toNat_ofNat_of_ascii (Nat.lt_succ_of_le small)] at own
    exact UInt8.toNat_inj.mp own
  · rw [same] at own
    rcases toNat_ofNat_of_large large with zero | reaches <;> omega

/-! ### Lines -/

theorem mem_decodeLossy {bytes : List UInt8} {byte : UInt8} (ascii : byte ≤ 0x7F)
    (positive : 0 < byte) (member : Char.ofNat byte.toNat ∈ decodeLossy bytes) : byte ∈ bytes := by
  obtain ⟨read, inside, same⟩ := List.mem_map.mp member
  cases read with
  | none =>
    rw [UInt8.le_iff_toNat_le] at ascii
    have large : (0x80 : Nat) ≤ replacement.toNat := by decide
    have own := toNat_ofNat_of_ascii (Nat.lt_succ_of_le ascii)
    have ascii : byte.toNat ≤ 0x7F := ascii
    rw [← same, Option.getD_none] at own
    omega
  | some read =>
    rw [Option.getD_some] at same
    rw [same] at inside
    obtain ⟨other, within, completes⟩ := exists_byte reached_none inside
    rw [← eq_of_completes ascii positive completes]
    exact within

theorem exists_last_decodeLossy (former : List UInt8) (byte : UInt8) :
    ∃ front last, decodeLossy (former ++ [byte]) = front ++ [last] ∧
      (last = '\r' → byte = Child.carriage) := by
  obtain ⟨front, last, whole, completes⟩ := exists_last reached_none former byte
  refine ⟨front.map (·.getD replacement), last.getD replacement, ?_, fun same => ?_⟩
  · rw [decodeLossy, whole, List.map_append]
    rfl
  · cases last with
    | none => exact absurd same (by decide)
    | some read =>
      rw [Option.getD_some] at same
      rw [same] at completes
      exact eq_of_completes (by decide) (by decide) completes

theorem decodeLossy_append_ascii (former : List UInt8) {byte : UInt8} (ascii : byte ≤ 0x7F)
    (latter : List UInt8) :
    decodeLossy (former ++ byte :: latter) =
      decodeLossy former ++ Char.ofNat byte.toNat :: decodeLossy latter := by
  rw [decodeLossy, decodeFrom_append_ascii reached_none former ascii, List.map_append]
  rfl

theorem isEmpty_decodeLossy (bytes : List UInt8) :
    (decodeLossy bytes).isEmpty = bytes.isEmpty := by
  rcases List.eq_nil_or_concat bytes with rfl | ⟨former, byte, rfl⟩
  · rfl
  · obtain ⟨front, last, whole, -⟩ := exists_last_decodeLossy former byte
    rw [List.concat_eq_append, whole, List.isEmpty_eq_false_iff.mpr (List.concat_ne_nil _ _),
      List.isEmpty_eq_false_iff.mpr (List.concat_ne_nil _ _)]

/-- A line loses its carriage return before decoding as after it. -/
theorem dropCarriage_decodeLossy (line : List UInt8) :
    dropCarriage '\r' (decodeLossy line) = decodeLossy (dropCarriage Child.carriage line) := by
  rcases List.eq_nil_or_concat line with rfl | ⟨former, byte, rfl⟩
  · rfl
  · rw [List.concat_eq_append]
    by_cases carriage : byte = Child.carriage
    · have whole : decodeLossy (former ++ [byte]) = decodeLossy former ++ ['\r'] := by
        rw [carriage]
        exact decodeLossy_append_ascii former (by decide) []
      rw [whole, dropCarriage, dropCarriage, List.getLast?_concat, List.getLast?_concat, if_pos rfl,
        carriage, if_pos rfl, List.dropLast_concat, List.dropLast_concat]
    · obtain ⟨front, last, whole, same⟩ := exists_last_decodeLossy former byte
      have other : ¬ some last = some '\r' := fun equal => carriage (same (Option.some.inj equal))
      have otherByte : ¬ some byte = some Child.carriage := fun equal =>
        carriage (Option.some.inj equal)
      rw [dropCarriage, dropCarriage, whole, List.getLast?_concat, List.getLast?_concat,
        if_neg other, if_neg otherByte, whole]

/-- The lines of decoded bytes are the decoded lines of the bytes. -/
theorem splitLines_decodeLossy (bytes : List UInt8) :
    splitLines '\n' '\r' (decodeLossy bytes) =
      (splitLines Child.newline Child.carriage bytes).map decodeLossy := by
  have newline {line : List UInt8} (whole : Child.newline ∉ line) : '\n' ∉ decodeLossy line :=
    fun member => whole (mem_decodeLossy (by decide) (by decide) member)
  induction bytes using stretches_induction Child.newline with
  | last line whole =>
    rw [splitLines_of_not_mem (newline whole), splitLines_of_not_mem whole, isEmpty_decodeLossy]
    cases line.isEmpty <;> rfl
  | more line rest whole inductionHypothesis =>
    have first : decodeLossy (line ++ Child.newline :: rest) =
        decodeLossy line ++ '\n' :: decodeLossy rest :=
      decodeLossy_append_ascii line (by decide) rest
    rw [first, splitLines_append (newline whole), splitLines_append whole, inductionHypothesis,
      dropCarriage_decodeLossy, List.map_cons]

end YaraReport.Text.Utf8

namespace YaraReport.Child

/-- The lines of a stream are the lines of its decoded bytes. -/
theorem lines_eq (bytes : List UInt8) : lines bytes = Text.lines (Text.Utf8.toStringLossy bytes) := by
  rw [lines, Text.lines, Text.Utf8.toStringLossy, String.toList_ofList,
    Text.Utf8.splitLines_decodeLossy, List.map_map]
  rfl

end YaraReport.Child
