/-
This file proves what removing the blanks around a text comes to. What is left
neither begins nor ends with a blank, a text that does neither is left as it is,
and blanks before a text make no difference.
-/

import Mathlib.Data.List.DropRight
import YaraReport.Text.Blank

namespace YaraReport.Text

/-- A text that neither begins nor ends with a blank. -/
structure Unpadded (text : List Char) : Prop where
  head : ∀ character ∈ text.head?, isBlank character = false
  last : ∀ character ∈ text.getLast?, isBlank character = false

theorem trim_eq (text : List Char) :
    trim text = (text.dropWhile isBlank).rdropWhile isBlank := rfl

/-- Blanks before a text make no difference. -/
theorem trim_cons {character : Char} (blank : isBlank character = true) (text : List Char) :
    trim (character :: text) = trim text := by
  rw [trim, List.dropWhile_cons_of_pos blank, trim]

theorem mem_of_mem_trim {character : Char} {text : List Char} (member : character ∈ trim text) :
    character ∈ text := by
  rw [trim_eq] at member
  exact List.dropWhile_subset isBlank ((List.rdropWhile_prefix isBlank _).subset member)

theorem trim_of_unpadded {text : List Char} (unpadded : Unpadded text) : trim text = text := by
  have front : text.dropWhile isBlank = text := by
    rw [List.dropWhile_eq_self_iff]
    intro nonempty
    rw [unpadded.head _ (List.head?_eq_getElem? ▸ List.getElem?_eq_getElem nonempty)]
    exact Bool.false_ne_true
  rw [trim_eq, front, List.rdropWhile_eq_self_iff]
  intro nonempty
  rw [unpadded.last _ (List.getLast?_eq_getLast_of_ne_nil nonempty)]
  exact Bool.false_ne_true

/-- Trimming a text leaves no blank at either end. -/
theorem unpadded_trim (text : List Char) : Unpadded (trim text) := by
  constructor
  · intro character first
    obtain ⟨tail, front⟩ := List.head?_eq_some_iff.mp first
    obtain ⟨rest, whole⟩ := List.rdropWhile_prefix isBlank (text.dropWhile isBlank)
    rw [← trim_eq, front] at whole
    have visible := List.head?_dropWhile_not isBlank text
    rw [← whole] at visible
    exact visible
  · intro character last
    have nonempty : trim text ≠ [] := by
      rintro empty
      rw [empty] at last
      cases last
    obtain rfl : (trim text).getLast nonempty = character :=
      Option.some.inj ((List.getLast?_eq_getLast_of_ne_nil nonempty).symm.trans last)
    exact Bool.eq_false_iff.mpr (List.rdropWhile_last_not isBlank _ nonempty)

theorem unpadded_iff (text : List Char) : Unpadded text ↔ trim text = text :=
  ⟨trim_of_unpadded, fun same => same ▸ unpadded_trim text⟩

instance (text : List Char) : Decidable (Unpadded text) :=
  decidable_of_iff (trim text = text) (unpadded_iff text).symm

end YaraReport.Text
