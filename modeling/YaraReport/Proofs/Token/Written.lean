/-
This file ties tokens to the texts they are written as. A token that its kind
allows is read off its own text, whatever follows it, except that a word wants
something to end it; and whatever token is read off a text, the text begins with
what that token is written as.

The main statements are `Token.read?_written` and `Token.written_of_read?`, the
two directions of that.
-/

import YaraReport.Token.Lexer

namespace YaraReport.Token

/-! ### One token -/

/-- A character that is not part of a word is a blank or a delimiter. -/
theorem isWordCharacter_eq_false_iff (character : Char) :
    isWordCharacter character = false ↔
      Text.isBlank character = true ∨ isDelimiter character = true := by
  unfold isWordCharacter
  cases Text.isBlank character <;> cases isDelimiter character <;> decide

theorem isBlank_of_isWordCharacter {character : Char}
    (word : isWordCharacter character = true) : Text.isBlank character = false := by
  unfold isWordCharacter at word
  cases blank : Text.isBlank character with
  | false => rfl
  | true => rw [blank] at word; exact absurd word Bool.false_ne_true

theorem isDelimiter_of_isWordCharacter {character : Char}
    (word : isWordCharacter character = true) : isDelimiter character = false := by
  unfold isWordCharacter at word
  cases delimiter : isDelimiter character with
  | false => rfl
  | true => rw [delimiter, Bool.not_true, Bool.and_false] at word; exact absurd word Bool.false_ne_true

/-- A text that begins with a character of a word begins with that word. -/
theorem read?_of_isWordCharacter {character : Char} (word : isWordCharacter character = true)
    (tail : List Char) :
    read? (character :: tail) =
      some (ofWord ((character :: tail).takeWhile isWordCharacter),
        (character :: tail).dropWhile isWordCharacter) := by
  have plain := isDelimiter_of_isWordCharacter word
  unfold read?
  split
  all_goals first
    | rfl
    | (rename_i front; cases front; exact absurd plain (by decide))
    | (rename_i front; cases front)

/-! ### Strings -/

/-- Whether a text can stand between two quotes: it holds no quote but after a backslash that
takes it along, and no backslash at its end that would take the closing quote along. -/
def isClosed : List Char → Bool
  | [] => true
  | '"' :: _ => false
  | ['\\'] => false
  | '\\' :: _ :: rest => isClosed rest
  | _ :: rest => isClosed rest

/-- A text that can stand between quotes is what stands before the closing quote. -/
theorem closingQuote?_of_isClosed (raw rest : List Char) (closed : isClosed raw = true) :
    closingQuote? (raw ++ '"' :: rest) = some (raw, rest) := by
  fun_induction isClosed raw with
  | case1 => rfl
  | case2 => exact absurd closed Bool.false_ne_true
  | case3 => exact absurd closed Bool.false_ne_true
  | case4 next tail inductionHypothesis =>
    rw [List.cons_append, List.cons_append, closingQuote?, inductionHypothesis closed]
    rfl
  | case5 character tail noQuote noEnd noEscape inductionHypothesis =>
    rw [List.cons_append, closingQuote?, inductionHypothesis closed]
    · rfl
    · exact noQuote
    · intro next others slash front
      cases tail with
      | nil => exact noEnd slash rfl
      | cons head others => exact noEscape head others slash rfl

/-- What stands before the closing quote can stand between quotes. -/
theorem isClosed_of_closingQuote? (text : List Char) (parts : List Char × List Char)
    (closed : closingQuote? text = some parts) :
    text = parts.1 ++ '"' :: parts.2 ∧ isClosed parts.1 = true := by
  fun_induction closingQuote? text generalizing parts with
  | case1 => cases closed
  | case2 rest =>
    cases closed
    exact ⟨rfl, rfl⟩
  | case3 next rest inductionHypothesis =>
    obtain ⟨inner, found, rfl⟩ := Option.map_eq_some_iff.mp closed
    obtain ⟨text, proper⟩ := inductionHypothesis inner found
    refine ⟨by rw [text]; rfl, ?_⟩
    rw [isClosed]
    exact proper
  | case4 character rest noQuote noEscape inductionHypothesis =>
    obtain ⟨inner, found, rfl⟩ := Option.map_eq_some_iff.mp closed
    obtain ⟨text, proper⟩ := inductionHypothesis inner found
    refine ⟨by rw [text]; rfl, ?_⟩
    rw [isClosed]
    · exact proper
    · exact noQuote
    · intro slash nothing
      rw [nothing] at text
      exact noEscape '"' inner.2 slash text
    · intro next others slash front
      rw [front] at text
      exact noEscape next (others ++ '"' :: inner.2) slash text

/-! ### Tokens as they are written -/

/-- A bareword: at least one character, and neither blanks nor delimiters among them. -/
def IsBareword (text : List Char) : Prop :=
  text ≠ [] ∧ ∀ character ∈ text, isWordCharacter character = true

instance (text : List Char) : Decidable (IsBareword text) :=
  decidable_of_iff (text ≠ [] ∧ text.all isWordCharacter = true)
    (and_congr_right fun _ => List.all_eq_true)

/-- A bareword that is no numeral. -/
def IsName (text : List Char) : Prop := IsBareword text ∧ isNumeral text = false

instance (text : List Char) : Decidable (IsName text) :=
  inferInstanceAs (Decidable (IsBareword text ∧ isNumeral text = false))

/-- Whether a token can be read: its text is what its kind demands. The end of the line is not
written. -/
def Proper : Token → Prop
  | .identifier text => IsName text.toList
  | .number text => IsBareword text.toList ∧ isNumeral text.toList = true
  | .string raw => isClosed raw.toList = true
  | .empty => False
  | _ => True

instance : (token : Token) → Decidable token.Proper
  | .identifier text => inferInstanceAs (Decidable (IsName text.toList))
  | .number text => inferInstanceAs (Decidable (IsBareword text.toList ∧ isNumeral text.toList = true))
  | .string raw => inferInstanceAs (Decidable (isClosed raw.toList = true))
  | .empty => .isFalse id
  | .equals | .comma | .colon | .leftBracket | .rightBracket => .isTrue trivial

/-- Whether a token ends only where a character stands that is not part of a word. -/
def isWord : Token → Bool
  | .identifier _ | .number _ => true
  | _ => false

/-- Whether a word ends before a text. -/
def EndsWord (rest : List Char) : Prop :=
  ∀ character ∈ rest.head?, isWordCharacter character = false

theorem endsWord_of_isDelimiter {character : Char} (delimiter : isDelimiter character = true)
    (rest : List Char) : EndsWord (character :: rest) := by
  intro other member
  cases member
  exact (isWordCharacter_eq_false_iff character).mpr (.inr delimiter)

theorem endsWord_rightBracket (rest : List Char) : EndsWord (']' :: rest) :=
  endsWord_of_isDelimiter rfl rest

theorem endsWord_of_isBlank {character : Char} (blank : Text.isBlank character = true)
    (rest : List Char) : EndsWord (character :: rest) := by
  intro other member
  cases member
  exact (isWordCharacter_eq_false_iff character).mpr (.inl blank)

/-- The word at the front of a text is all of a bareword that ends there. -/
theorem takeWhile_bareword {word rest : List Char} (bareword : IsBareword word)
    (ends : EndsWord rest) :
    (word ++ rest).takeWhile isWordCharacter = word ∧
      (word ++ rest).dropWhile isWordCharacter = rest := by
  rw [List.takeWhile_append_of_pos bareword.2, List.dropWhile_append_of_pos bareword.2]
  cases rest with
  | nil => exact ⟨by rw [List.takeWhile_nil, List.append_nil], List.dropWhile_nil⟩
  | cons character tail =>
    have other : ¬ isWordCharacter character = true := by
      rw [ends character rfl]
      exact Bool.false_ne_true
    rw [List.takeWhile_cons_of_neg other, List.dropWhile_cons_of_neg other, List.append_nil]
    exact ⟨rfl, rfl⟩

/-- A bareword is read as a word. -/
theorem read?_bareword {word rest : List Char} (bareword : IsBareword word)
    (ends : EndsWord rest) : read? (word ++ rest) = some (ofWord word, rest) := by
  obtain ⟨taken, dropped⟩ := takeWhile_bareword bareword ends
  cases word with
  | nil => exact absurd rfl bareword.1
  | cons character tail =>
    rw [List.cons_append] at taken dropped ⊢
    rw [read?_of_isWordCharacter (bareword.2 character List.mem_cons_self), taken, dropped]

theorem ofWord_of_isNumeral {word : List Char} (numeral : isNumeral word = true) :
    ofWord word = .number (String.ofList word) := if_pos numeral

theorem ofWord_of_not_isNumeral {word : List Char} (name : isNumeral word = false) :
    ofWord word = .identifier (String.ofList word) :=
  if_neg (by rw [name]; exact Bool.false_ne_true)

theorem ofWord_ne_empty (word : List Char) : ofWord word ≠ .empty := by
  unfold ofWord
  split <;> exact Token.noConfusion

theorem written_ofWord (word : List Char) : (ofWord word).written = word := by
  unfold ofWord
  split <;> exact String.toList_ofList

theorem proper_ofWord {word : List Char} (bareword : IsBareword word) :
    (ofWord word).Proper := by
  unfold ofWord
  split <;> rename_i numeral <;> rw [Proper, String.toList_ofList]
  · exact ⟨bareword, numeral⟩
  · exact ⟨bareword, Bool.eq_false_iff.mpr numeral⟩

/-- A token is read off its own text. Only a word asks for something to end it. -/
theorem read?_written {token : Token} {rest : List Char} (proper : token.Proper)
    (ends : token.isWord = true → EndsWord rest) :
    read? (token.written ++ rest) = some (token, rest) := by
  cases token with
  | identifier text =>
    have read := read?_bareword proper.1 (ends rfl)
    rwa [ofWord_of_not_isNumeral proper.2, String.ofList_toList] at read
  | number text =>
    have read := read?_bareword proper.1 (ends rfl)
    rwa [ofWord_of_isNumeral proper.2, String.ofList_toList] at read
  | string raw =>
    have closing := closingQuote?_of_isClosed raw.toList rest proper
    rw [written, List.cons_append, List.append_assoc, List.singleton_append, read?, closing,
      Option.map_some, String.ofList_toList]
  | equals | comma | colon | leftBracket | rightBracket => rfl
  | empty => exact proper.elim

/-- A token that is read off a text is what stands at its front. -/
theorem written_of_read? {text rest : List Char} {token : Token}
    (visible : ∀ character ∈ text.head?, Text.isBlank character = false)
    (read : read? text = some (token, rest)) (nonempty : token ≠ .empty) :
    text = token.written ++ rest ∧ token.Proper ∧ (token.isWord = true → EndsWord rest) := by
  cases text with
  | nil =>
    cases read
    exact absurd rfl nonempty
  | cons character tail =>
    cases word : isWordCharacter character with
    | true =>
      rw [read?_of_isWordCharacter word] at read
      cases read
      have bareword : IsBareword ((character :: tail).takeWhile isWordCharacter) := by
        refine ⟨?_, fun other member => ?_⟩
        · rw [List.takeWhile_cons_of_pos word]
          exact List.cons_ne_nil _ _
        · exact List.all_eq_true.mp List.all_takeWhile other member
      refine ⟨?_, proper_ofWord bareword, fun _ other member => ?_⟩
      · rw [written_ofWord, List.takeWhile_append_dropWhile]
      · have ended := List.head?_dropWhile_not isWordCharacter (character :: tail)
        rw [member] at ended
        exact ended
    | false =>
      have delimiter : isDelimiter character = true :=
        ((isWordCharacter_eq_false_iff character).mp word).resolve_left fun blank =>
          Bool.false_ne_true ((visible character rfl).symm.trans blank)
      unfold isDelimiter at delimiter
      split at delimiter
      iterate 5
        · cases read
          exact ⟨rfl, trivial, fun word => absurd word Bool.false_ne_true⟩
      · obtain ⟨parts, found, same⟩ := Option.map_eq_some_iff.mp read
        cases same
        obtain ⟨text, closed⟩ := isClosed_of_closingQuote? _ _ found
        refine ⟨?_, ?_, fun word => absurd word Bool.false_ne_true⟩
        · rw [text, written, String.toList_ofList, List.cons_append, List.append_assoc,
            List.singleton_append]
        · rw [Proper, String.toList_ofList]
          exact closed
      · exact absurd delimiter Bool.false_ne_true

/-- Only at its end a text has nothing more to read. -/
theorem read?_cons_ne_empty {character : Char} {tail : List Char}
    (visible : Text.isBlank character = false) (rest : List Char) :
    read? (character :: tail) ≠ some (.empty, rest) := by
  intro read
  have shorter : isWordCharacter character = true ∨ isDelimiter character = true := by
    unfold isWordCharacter
    rw [visible]
    cases isDelimiter character <;> decide
  rcases shorter with word | delimiter
  · rw [read?_of_isWordCharacter word] at read
    exact ofWord_ne_empty _ (Prod.mk.inj (Option.some.inj read)).1
  · unfold isDelimiter at delimiter
    split at delimiter
    iterate 5
      · cases read
    · obtain ⟨parts, -, same⟩ := Option.map_eq_some_iff.mp read
      cases same
    · exact absurd delimiter Bool.false_ne_true

/-- What a token is written as begins with a visible character. -/
theorem written_visible {token : Token} (proper : token.Proper) :
    ∃ character tail, token.written = character :: tail ∧ Text.isBlank character = false := by
  cases token with
  | identifier text | number text =>
    obtain ⟨⟨nonempty, word⟩, -⟩ := proper
    obtain ⟨character, tail, front⟩ := List.exists_cons_of_ne_nil nonempty
    exact ⟨character, tail, front,
      isBlank_of_isWordCharacter (word character (front ▸ List.mem_cons_self))⟩
  | string raw => exact ⟨'"', raw.toList ++ ['"'], rfl, by decide⟩
  | equals => exact ⟨'=', [], rfl, by decide⟩
  | comma => exact ⟨',', [], rfl, by decide⟩
  | colon => exact ⟨':', [], rfl, by decide⟩
  | leftBracket => exact ⟨'[', [], rfl, by decide⟩
  | rightBracket => exact ⟨']', [], rfl, by decide⟩
  | empty => exact proper.elim

theorem head?_dropWhile_isBlank (text : List Char) :
    ∀ character ∈ (text.dropWhile Text.isBlank).head?, Text.isBlank character = false := by
  intro character member
  have ended := List.head?_dropWhile_not Text.isBlank text
  rw [member] at ended
  exact ended

theorem ne_empty_of_proper {token : Token} (proper : token.Proper) : token ≠ .empty := by
  rintro rfl
  exact proper

theorem kind_eq_empty_iff (token : Token) : token.kind = .empty ↔ token = .empty := by
  cases token <;> simp only [kind, reduceCtorEq]

theorem eq_identifier_of_kind {token : Token} (identifier : token.kind = .identifier) :
    ∃ text, token = .identifier text := by
  cases token with
  | identifier text => exact ⟨text, rfl⟩
  | _ => cases identifier

theorem eq_number_of_kind {token : Token} (number : token.kind = .number) :
    ∃ text, token = .number text := by
  cases token with
  | number text => exact ⟨text, rfl⟩
  | _ => cases number

theorem eq_leftBracket_of_kind {token : Token} (bracket : token.kind = .leftBracket) :
    token = .leftBracket := by
  cases token with
  | leftBracket => rfl
  | _ => cases bracket

end YaraReport.Token
