/-
This file proves that a JSON text has one meaning. A value that stands before
any other text can be told from every other value there, and where it ends is
plain as well; so no two values are written alike. Numerals do not say where
they end, so they want something behind them that cannot prolong them. All
that stands behind a value in a longer one does.

The main statement is `write_append_inj`.
-/

import YaraReport.Json
import YaraReport.Proofs.Text.Numerals
import YaraReport.Proofs.Text.Escaping

namespace YaraReport.Json

/-! ### Strings -/

/-- The character that a text between quotes begins with, its escape resolved, and what follows
it; nothing where the quotes are closed. -/
def front? : List Char → Option (Char × List Char)
  | '\\' :: '"' :: rest => some ('"', rest)
  | '\\' :: '\\' :: rest => some ('\\', rest)
  | '\\' :: 'b' :: rest => some ('\x08', rest)
  | '\\' :: 'f' :: rest => some ('\x0c', rest)
  | '\\' :: 'n' :: rest => some ('\n', rest)
  | '\\' :: 'r' :: rest => some ('\r', rest)
  | '\\' :: 't' :: rest => some ('\t', rest)
  | '\\' :: 'u' :: '0' :: '0' :: high :: low :: rest =>
    match Text.hexDigit? high, Text.hexDigit? low with
    | some high, some low => some (Char.ofNat (16 * high + low), rest)
    | _, _ => none
  | '"' :: _ | '\\' :: _ | [] => none
  | character :: rest => some (character, rest)

theorem hexDigit?_hexDigit : ∀ digit < 16, Text.hexDigit? (hexDigit digit) = some digit := by
  decide

theorem front?_escape (character : Char) (rest : List Char) :
    front? (escape character ++ rest) = some (character, rest) := by
  unfold escape
  split
  iterate 7 rfl
  rename_i noQuote noSlash _ _ _ _ _
  split
  · rename_i control
    have value : 16 * (character.toNat / 16) + character.toNat % 16 = character.toNat :=
      Nat.div_add_mod _ _
    simp only [List.cons_append, List.nil_append, front?,
      hexDigit?_hexDigit (character.toNat / 16) (by omega),
      hexDigit?_hexDigit (character.toNat % 16) (by omega), value, Char.ofNat_toNat]
  · rw [List.singleton_append]
    unfold front?
    split <;> simp_all

/-- Escaped texts in quotes are told apart, and so is what follows them. -/
theorem flatMap_escape_inj {text other rest tail : List Char}
    (same : text.flatMap escape ++ '"' :: rest = other.flatMap escape ++ '"' :: tail) :
    text = other ∧ rest = tail := by
  have closed (rest : List Char) : front? ('"' :: rest) = none := rfl
  induction text generalizing other with
  | nil =>
    cases other with
    | nil => exact ⟨rfl, List.tail_eq_of_cons_eq same⟩
    | cons character other =>
      have fronts := congrArg front? same
      rw [List.flatMap_cons, List.append_assoc, front?_escape] at fronts
      cases fronts
  | cons character text inductionHypothesis =>
    have fronts := congrArg front? same
    rw [List.flatMap_cons, List.append_assoc, front?_escape] at fronts
    cases other with
    | nil => cases fronts
    | cons second other =>
      rw [List.flatMap_cons, List.append_assoc, front?_escape] at fronts
      obtain ⟨rfl, left⟩ := Prod.mk.inj (Option.some.inj fronts)
      obtain ⟨rfl, rests⟩ := inductionHypothesis left
      exact ⟨rfl, rests⟩

theorem quoted_append_inj {text other : String} {rest tail : List Char}
    (same : quoted text ++ rest = quoted other ++ tail) : text = other ∧ rest = tail := by
  simp only [quoted, List.cons_append, List.append_assoc] at same
  obtain ⟨texts, rests⟩ := flatMap_escape_inj (List.tail_eq_of_cons_eq same)
  exact ⟨String.toList_injective texts, rests⟩

/-! ### Numerals -/

def isNumeralCharacter (character : Char) : Bool := character.isDigit || character = '-'

/-- A text that cannot prolong a numeral before it. -/
def EndsNumeral (rest : List Char) : Prop :=
  ∀ character ∈ rest.head?, isNumeralCharacter character = false

theorem numeral_eq (value : Int) : numeral value = Text.signedDecimal value := by
  cases value with
  | ofNat value => exact (Text.signedDecimal_ofNat value).symm
  | negSucc value => exact (Text.signedDecimal_negSucc value).symm

theorem forall_mem_numeral (value : Int) :
    ∀ character ∈ numeral value, isNumeralCharacter character = true := by
  rw [numeral_eq]
  exact Text.forall_mem_signedDecimal (by decide) (by decide) value

theorem takeWhile_numeral (value : Int) {rest : List Char} (ends : EndsNumeral rest) :
    (numeral value ++ rest).takeWhile isNumeralCharacter = numeral value := by
  have nothing : rest.takeWhile isNumeralCharacter = [] := by
    cases rest with
    | nil => rfl
    | cons character rest =>
      rw [List.takeWhile_cons_of_neg]
      rw [ends character rfl]
      exact Bool.false_ne_true
  rw [List.takeWhile_append_of_pos (forall_mem_numeral value), nothing, List.append_nil]

theorem numeral_append_inj {value other : Int} {rest tail : List Char}
    (restEnds : EndsNumeral rest) (tailEnds : EndsNumeral tail)
    (same : numeral value ++ rest = numeral other ++ tail) : value = other ∧ rest = tail := by
  have numerals := congrArg (List.takeWhile isNumeralCharacter) same
  rw [takeWhile_numeral value restEnds, takeWhile_numeral other tailEnds] at numerals
  rw [numerals] at same
  refine ⟨?_, List.append_cancel_left same⟩
  rw [numeral_eq, numeral_eq] at numerals
  have values := congrArg Text.signed? numerals
  rw [Text.signed?_signedDecimal, Text.signed?_signedDecimal] at values
  exact Option.some.inj values

/-! ### Kinds of values -/

/-- What the front of a JSON text tells of the value that stands there. -/
inductive Kind where
  | null
  | boolean (value : Bool)
  | integer
  | text
  | emptyList
  | list
  | emptyRecord
  | record

def kind : Json → Kind
  | .null => .null
  | .boolean value => .boolean value
  | .integer _ => .integer
  | .text _ => .text
  | .list [] => .emptyList
  | .list (_ :: _) => .list
  | .record [] => .emptyRecord
  | .record (_ :: _) => .record

def kindAt : List Char → Kind
  | 'n' :: _ => .null
  | 't' :: _ => .boolean true
  | 'f' :: _ => .boolean false
  | '"' :: _ => .text
  | '[' :: ']' :: _ => .emptyList
  | '[' :: _ => .list
  | '\x7b' :: '\x7d' :: _ => .emptyRecord
  | '\x7b' :: _ => .record
  | _ => .integer

theorem exists_front_numeral (value : Int) :
    ∃ character rest, numeral value = character :: rest ∧ isNumeralCharacter character = true := by
  have digits := forall_mem_numeral value
  have nonempty : numeral value ≠ [] := numeral_eq value ▸ Text.signedDecimal_ne_nil value
  obtain ⟨character, rest, front⟩ := List.exists_cons_of_ne_nil nonempty
  exact ⟨character, rest, front, digits character (front ▸ List.mem_cons_self)⟩

theorem kindAt_numeral (value : Int) (rest : List Char) :
    kindAt (numeral value ++ rest) = .integer := by
  obtain ⟨character, digits, front, isNumeral⟩ := exists_front_numeral value
  rw [front, List.cons_append]
  unfold kindAt
  split
  case h_9 => rfl
  all_goals
    rename_i first
    rw [(List.cons.inj first).1] at isNumeral
    exact absurd isNumeral (by decide)

/-- A list that holds a value does not close where it opens. -/
theorem exists_front_item (layout : Layout) (depth : Nat) (value : Json) (rest : List Char) :
    ∃ character tail, character ≠ ']' ∧
      layout.gap depth ++ (write layout depth value ++ rest) = character :: tail := by
  cases layout with
  | indented => exact ⟨'\n', _, by decide, rfl⟩
  | compact =>
    show ∃ character tail, character ≠ ']' ∧ write .compact depth value ++ rest = character :: tail
    cases value with
    | null => exact ⟨'n', _, by decide, rfl⟩
    | boolean value =>
      cases value with
      | true => exact ⟨'t', _, by decide, rfl⟩
      | false => exact ⟨'f', _, by decide, rfl⟩
    | integer value =>
      obtain ⟨character, digits, front, isNumeral⟩ := exists_front_numeral value
      refine ⟨character, digits ++ rest, ?_, by rw [write, front, List.cons_append]⟩
      rintro rfl
      exact absurd isNumeral (by decide)
    | text value => exact ⟨'"', _, by decide, rfl⟩
    | list items => cases items <;> exact ⟨'[', _, by decide, rfl⟩
    | record fields => cases fields <;> exact ⟨'\x7b', _, by decide, rfl⟩

theorem kindAt_list {character : Char} (opens : character ≠ ']') (rest : List Char) :
    kindAt ('[' :: character :: rest) = .list := by
  rw [kindAt]
  intro _ front
  exact opens (List.cons.inj front).1

/-- The front of a written value tells its kind. -/
theorem kindAt_write (layout : Layout) (depth : Nat) (value : Json) (rest : List Char) :
    kindAt (write layout depth value ++ rest) = value.kind := by
  cases value with
  | null => rfl
  | boolean value => cases value <;> rfl
  | integer value => exact kindAt_numeral value rest
  | text value => rfl
  | list items =>
    cases items with
    | nil => rfl
    | cons first items =>
      simp only [write, List.cons_append, List.append_assoc, List.nil_append]
      obtain ⟨character, tail, opens, front⟩ := exists_front_item layout (depth + 1) first
        (writeItems layout depth items ++ (layout.gap depth ++ ']' :: rest))
      rw [front, kindAt_list opens]
      rfl
  | record fields =>
    cases fields with
    | nil => rfl
    | cons field fields =>
      obtain ⟨name, value⟩ := field
      cases layout <;> rfl

/-! ### Values -/

theorem endsNumeral_cons {character : Char} (other : isNumeralCharacter character = false)
    (rest : List Char) : EndsNumeral (character :: rest) := by
  intro first member
  cases member
  exact other

/-- What stands behind the last item or field: a gap and the closing bracket. -/
theorem endsNumeral_gap (layout : Layout) (depth : Nat) {bracket : Char}
    (other : isNumeralCharacter bracket = false) (rest : List Char) :
    EndsNumeral (layout.gap depth ++ bracket :: rest) := by
  cases layout with
  | compact => exact endsNumeral_cons other rest
  | indented => exact endsNumeral_cons (by decide) _

theorem head?_gap_ne_comma (layout : Layout) (depth : Nat) {bracket : Char} (other : bracket ≠ ',')
    (rest : List Char) : (layout.gap depth ++ bracket :: rest).head? ≠ some ',' := by
  cases layout with
  | compact => exact fun same => other (Option.some.inj same)
  | indented => exact fun same => absurd (Option.some.inj same) (by decide)

theorem endsNumeral_writeItems (layout : Layout) (depth : Nat) (items : List Json)
    {rest : List Char} (ends : EndsNumeral rest) :
    EndsNumeral (writeItems layout depth items ++ rest) := by
  cases items with
  | nil => exact ends
  | cons item items => exact endsNumeral_cons (by decide) _

theorem endsNumeral_writeFields (layout : Layout) (depth : Nat) (fields : List (String × Json))
    {rest : List Char} (ends : EndsNumeral rest) :
    EndsNumeral (writeFields layout depth fields ++ rest) := by
  cases fields with
  | nil => exact ends
  | cons field fields => exact endsNumeral_cons (by decide) _

mutual

/-- Values that stand before texts which cannot prolong them are told apart, and so is what
follows them. -/
theorem write_append_inj (layout : Layout) (depth : Nat) (value other : Json)
    {rest tail : List Char} (restEnds : EndsNumeral rest) (tailEnds : EndsNumeral tail)
    (same : write layout depth value ++ rest = write layout depth other ++ tail) :
    value = other ∧ rest = tail := by
  have kinds : value.kind = other.kind := by
    rw [← kindAt_write layout depth value rest, same, kindAt_write]
  have brackets : isNumeralCharacter ']' = false ∧ isNumeralCharacter '\x7d' = false := by decide
  have commas : ']' ≠ ',' ∧ '\x7d' ≠ ',' := by decide
  rcases value with _ | _ | value | text | (_ | ⟨first, items⟩) | (_ | ⟨⟨name, first⟩, fields⟩) <;>
    rcases other with _ | _ | other | word | (_ | ⟨second, others⟩) |
      (_ | ⟨⟨title, second⟩, others⟩) <;>
    cases kinds
  case null | boolean | list.nil | record.nil =>
    exact ⟨rfl, List.append_cancel_left same⟩
  case integer =>
    obtain ⟨rfl, rests⟩ := numeral_append_inj restEnds tailEnds same
    exact ⟨rfl, rests⟩
  case text =>
    obtain ⟨rfl, rests⟩ := quoted_append_inj same
    exact ⟨rfl, rests⟩
  -- An opening bracket stands before the first item as a comma stands before the others.
  case list.cons =>
    have ends (rest : List Char) := endsNumeral_gap layout depth brackets.1 rest
    have stops (rest : List Char) := head?_gap_ne_comma layout depth commas.1 rest
    obtain ⟨items, closed⟩ := writeItems_append_inj layout depth (first :: items)
      (second :: others) (ends rest) (ends tail) (stops rest) (stops tail) (by
        simpa only [write, writeItems, List.cons_append, List.append_assoc, List.cons.injEq,
          true_and, List.nil_append] using same)
    exact ⟨congrArg list items, List.tail_eq_of_cons_eq (List.append_cancel_left closed)⟩
  case record.cons =>
    have ends (rest : List Char) := endsNumeral_gap layout depth brackets.2 rest
    have stops (rest : List Char) := head?_gap_ne_comma layout depth commas.2 rest
    obtain ⟨fields, closed⟩ := writeFields_append_inj layout depth ((name, first) :: fields)
      ((title, second) :: others) (ends rest) (ends tail) (stops rest) (stops tail) (by
        simpa only [write, writeFields, List.cons_append, List.append_assoc, List.cons.injEq,
          true_and, List.nil_append] using same)
    exact ⟨congrArg record fields, List.tail_eq_of_cons_eq (List.append_cancel_left closed)⟩

/-- Items that stand before texts which begin with no further item are told apart. -/
theorem writeItems_append_inj (layout : Layout) (depth : Nat) (items others : List Json)
    {rest tail : List Char} (restEnds : EndsNumeral rest) (tailEnds : EndsNumeral tail)
    (restStops : rest.head? ≠ some ',') (tailStops : tail.head? ≠ some ',')
    (same : writeItems layout depth items ++ rest = writeItems layout depth others ++ tail) :
    items = others ∧ rest = tail := by
  rcases items with _ | ⟨item, items⟩ <;> rcases others with _ | ⟨other, others⟩
  case nil.nil => exact ⟨rfl, same⟩
  case nil.cons => exact absurd (congrArg List.head? same) restStops
  case cons.nil => exact absurd (congrArg List.head? same).symm tailStops
  case cons.cons =>
    simp only [writeItems, List.cons_append, List.append_assoc, List.cons.injEq, true_and,
      List.append_cancel_left_eq] at same
    obtain ⟨rfl, left⟩ := write_append_inj layout (depth + 1) item other
      (endsNumeral_writeItems layout depth items restEnds)
      (endsNumeral_writeItems layout depth others tailEnds) same
    obtain ⟨rfl, rests⟩ := writeItems_append_inj layout depth items others restEnds tailEnds
      restStops tailStops left
    exact ⟨rfl, rests⟩

/-- Fields that stand before texts which begin with no further field are told apart. -/
theorem writeFields_append_inj (layout : Layout) (depth : Nat)
    (fields others : List (String × Json)) {rest tail : List Char}
    (restEnds : EndsNumeral rest) (tailEnds : EndsNumeral tail)
    (restStops : rest.head? ≠ some ',') (tailStops : tail.head? ≠ some ',')
    (same : writeFields layout depth fields ++ rest = writeFields layout depth others ++ tail) :
    fields = others ∧ rest = tail := by
  rcases fields with _ | ⟨⟨name, value⟩, fields⟩ <;> rcases others with _ | ⟨⟨title, other⟩, others⟩
  case nil.nil => exact ⟨rfl, same⟩
  case nil.cons => exact absurd (congrArg List.head? same) restStops
  case cons.nil => exact absurd (congrArg List.head? same).symm tailStops
  case cons.cons =>
    simp only [writeFields, List.cons_append, List.append_assoc, List.cons.injEq, true_and,
      List.append_cancel_left_eq] at same
    obtain ⟨rfl, values⟩ := quoted_append_inj same
    obtain ⟨rfl, left⟩ := write_append_inj layout (depth + 1) value other
      (endsNumeral_writeFields layout depth fields restEnds)
      (endsNumeral_writeFields layout depth others tailEnds) (List.append_cancel_left values)
    obtain ⟨rfl, rests⟩ := writeFields_append_inj layout depth fields others restEnds tailEnds
      restStops tailStops left
    exact ⟨rfl, rests⟩

end

end YaraReport.Json
