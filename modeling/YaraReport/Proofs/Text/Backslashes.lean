/-
This file proves that the lexer and the resolving of escapes agree on where escapes
are. The lexer takes any character along with a backslash before it; resolving does so
only with five of them, and reads every other one on its own. Still both pair the
backslashes of a run from its beginning, so that what matters of a front is only whether
it ends in an odd run of backslashes: if not, it is resolved alike whatever follows
(`unescape_append`), and what stands between the quotes of a string never ends so
(`dangles_of_isClosed`).

What resolving does to the size of a text is said once, for any size that adds up over
characters (`sum_unescape`).
-/

import Mathlib.Algebra.GroupWithZero.Nat
import YaraReport.Proofs.Text.Escaping
import YaraReport.Proofs.Token.Tiling

namespace YaraReport.Text

/-! ### Runs of backslashes -/

/-- The number of backslashes that a text ends with. -/
def trailing (text : List Char) : Nat := (text.reverse.takeWhile (· = '\\')).length

/-- Whether a text ends in an odd run of backslashes, the last of which takes along what follows. -/
def dangles (text : List Char) : Bool := trailing text % 2 = 1

theorem trailing_cons (character : Char) (text : List Char) :
    trailing (character :: text) =
      if trailing text = text.length ∧ character = '\\' then trailing text + 1
      else trailing text := by
  unfold trailing
  rw [List.reverse_cons, List.takeWhile_append]
  by_cases slash : character = '\\' <;>
    by_cases full : (text.reverse.takeWhile (· = '\\')).length = text.reverse.length <;>
    simp_all

theorem trailing_le (text : List Char) : trailing text ≤ text.length := by
  simpa [trailing] using (List.takeWhile_prefix (· = '\\') (l := text.reverse)).length_le

theorem dangles_cons {character : Char} (plain : character ≠ '\\') (text : List Char) :
    dangles (character :: text) = dangles text := by
  simp [dangles, trailing_cons, plain]

/-- A backslash and the character after it make no difference to how a text ends. -/
theorem dangles_pair (next : Char) (text : List Char) :
    dangles ('\\' :: next :: text) = dangles text := by
  have bound := trailing_le text
  by_cases full : trailing text = text.length ∧ next = '\\'
  · have both : trailing ('\\' :: next :: text) = trailing text + 2 := by
      simp [trailing_cons, full]
    rw [dangles, dangles, both, Nat.add_mod_right]
  · have stays : trailing (next :: text) = trailing text := by rw [trailing_cons, if_neg full]
    have neither : trailing ('\\' :: next :: text) = trailing text := by
      rw [trailing_cons, stays, List.length_cons]
      exact if_neg fun all => by omega
    rw [dangles, dangles, neither]

/-! ### Escapes -/

theorem unescape_pair (next : Char) (text : List Char) :
    unescape ('\\' :: next :: text) =
      (escaped? next).elim ['\\', next] (fun meant => [meant]) ++ unescape text := by
  rw [unescape]
  cases escaped? next <;> rfl

/-- A text is read as it is resolved: nothing is left, or a backslash alone, or a pair stands next,
or a character on its own. -/
theorem pairs_induction {motive : List Char → Prop} (nil : motive [])
    (alone : motive ['\\'])
    (pair : ∀ next text, motive text → motive ('\\' :: next :: text))
    (plain : ∀ character text, character ≠ '\\' → motive text → motive (character :: text))
    (text : List Char) : motive text :=
  match text with
  | [] => nil
  | character :: rest =>
    if slash : character = '\\' then
      match rest with
      | [] => slash ▸ alone
      | next :: rest => slash ▸ pair next rest (pairs_induction nil alone pair plain rest)
    else plain character rest slash (pairs_induction nil alone pair plain rest)

/-- A front that does not end in an odd run of backslashes is resolved alike whatever follows. -/
theorem unescape_append {front : List Char} (whole : dangles front = false) (back : List Char) :
    unescape (front ++ back) = unescape front ++ unescape back := by
  induction front using pairs_induction with
  | nil => rfl
  | alone => exact absurd whole (by decide)
  | pair next rest inductionHypothesis =>
    rw [dangles_pair] at whole
    rw [List.cons_append, List.cons_append, unescape_pair, unescape_pair,
      inductionHypothesis whole, List.append_assoc]
  | plain character rest plain inductionHypothesis =>
    rw [dangles_cons plain] at whole
    rw [List.cons_append, unescape_cons plain, unescape_cons plain, inductionHypothesis whole,
      List.cons_append]

/-- A text that ends in an odd run of backslashes ends in one that nothing before it takes along. -/
theorem exists_front_of_dangles {text : List Char} (odd : dangles text = true) :
    ∃ front, text = front ++ ['\\'] ∧ dangles front = false := by
  induction text using pairs_induction with
  | nil => exact absurd odd (by decide)
  | alone => exact ⟨[], rfl, rfl⟩
  | pair next rest inductionHypothesis =>
    rw [dangles_pair] at odd
    obtain ⟨front, rfl, whole⟩ := inductionHypothesis odd
    exact ⟨'\\' :: next :: front, rfl, (dangles_pair next front).trans whole⟩
  | plain character rest plain inductionHypothesis =>
    rw [dangles_cons plain] at odd
    obtain ⟨front, rfl, whole⟩ := inductionHypothesis odd
    exact ⟨character :: front, rfl, (dangles_cons plain front).trans whole⟩

/-- A front is resolved alike whatever follows exactly if it does not end in an odd run of
backslashes: such a run makes one character of its end and a quote. -/
theorem forall_unescape_append_iff (front : List Char) :
    (∀ back, unescape (front ++ back) = unescape front ++ unescape back) ↔
      dangles front = false := by
  refine ⟨fun splits => ?_, unescape_append⟩
  by_contra odd
  obtain ⟨before, rfl, whole⟩ := exists_front_of_dangles (Bool.eq_true_of_not_eq_false odd)
  have quoted := splits ['"']
  rw [List.append_assoc, unescape_append whole, unescape_append whole] at quoted
  simpa [unescape, escaped?] using congrArg List.length quoted

/-- A newline that resolving puts into a text is written as an escape there. -/
theorem exists_escape_of_newline {text : List Char} (whole : '\n' ∉ text)
    (resolved : '\n' ∈ unescape text) :
    ∃ front behind, text = front ++ '\\' :: 'n' :: behind ∧ dangles front = false := by
  induction text using pairs_induction with
  | nil => simp [unescape] at resolved
  | alone => simp [unescape] at resolved
  | pair next rest inductionHypothesis =>
    simp only [List.mem_cons, not_or] at whole
    by_cases escape : next = 'n'
    · subst escape
      exact ⟨[], rest, rfl, rfl⟩
    · have outside : '\n' ∉ (escaped? next).elim ['\\', next] fun meant => [meant] := by
        unfold escaped?
        split <;> simp_all
      rw [unescape_pair, List.mem_append] at resolved
      obtain ⟨front, behind, rfl, even⟩ :=
        inductionHypothesis whole.2.2 (resolved.resolve_left outside)
      exact ⟨'\\' :: next :: front, behind, rfl, (dangles_pair next front).trans even⟩
  | plain character rest plain inductionHypothesis =>
    simp only [List.mem_cons, not_or, unescape_cons plain] at whole resolved
    obtain ⟨front, behind, rfl, even⟩ :=
      inductionHypothesis whole.2 (resolved.resolve_left whole.1)
    exact ⟨character :: front, behind, rfl, (dangles_cons plain front).trans even⟩

/-! ### Positions of escapes -/

/-- Whether an escape begins at a position: a backslash that is not taken along by one before it
stands there, and one of the characters that it can stand with follows. -/
def begins (text : List Char) (position : Nat) : Bool :=
  text[position]? = some '\\' && !dangles (text.take position) &&
    (text[position + 1]?.bind escaped?).isSome

/-- The number of escapes in a text. -/
def escapes (text : List Char) : Nat := (List.range text.length).countP (begins text)

theorem escapes_cons (character : Char) (text : List Char) :
    escapes (character :: text) =
      (begins (character :: text) 0).toNat +
        (List.range text.length).countP fun position =>
          begins (character :: text) (position + 1) := by
  rw [escapes, List.length_cons, List.range_succ_eq_map, List.countP_cons, List.countP_map,
    Nat.add_comm]
  cases begins (character :: text) 0 <;> rfl

theorem begins_cons {character : Char} (plain : character ≠ '\\') (text : List Char)
    (position : Nat) : begins (character :: text) (position + 1) = begins text position := by
  simp [begins, dangles_cons plain]

theorem begins_pair (next : Char) (text : List Char) (position : Nat) :
    begins ('\\' :: next :: text) (position + 2) = begins text position := by
  simp [begins, dangles_pair]

theorem escapes_plain {character : Char} (plain : character ≠ '\\') (text : List Char) :
    escapes (character :: text) = escapes text := by
  have first : begins (character :: text) 0 = false := by simp [begins, plain]
  simp only [escapes_cons, first, begins_cons plain]
  exact Nat.zero_add _

theorem escapes_pair (next : Char) (text : List Char) :
    escapes ('\\' :: next :: text) = (escaped? next).isSome.toNat + escapes text := by
  have first : begins ('\\' :: next :: text) 0 = (escaped? next).isSome := by
    simp [begins, dangles, trailing]
  have second : begins ('\\' :: next :: text) 1 = false := by
    simp [begins, dangles, trailing]
  rw [escapes_cons, first, List.length_cons, List.range_succ_eq_map, List.countP_cons,
    List.countP_map]
  simp [second, Function.comp_def, begins_pair, escapes]

/-- Resolving an escape keeps the size of a text but for a part that is the same for all escapes. -/
theorem sum_unescape {size : Char → Nat} {spare : Nat}
    (saves : ∀ next meant, escaped? next = some meant →
      size meant + spare = size '\\' + size next) (text : List Char) :
    ((unescape text).map size).sum + spare * escapes text = (text.map size).sum := by
  induction text using pairs_induction with
  | nil => rfl
  | alone =>
    have none : escapes ['\\'] = 0 := by decide
    simp [unescape, none]
  | pair next rest inductionHypothesis =>
    rw [unescape_pair, escapes_pair]
    cases resolved : escaped? next with
    | none =>
      simp
      omega
    | some meant =>
      have saved := saves next meant resolved
      simp [Nat.mul_add]
      omega
  | plain character rest plain inductionHypothesis =>
    rw [unescape_cons plain, escapes_plain plain]
    simp
    omega

theorem length_unescape (text : List Char) :
    (unescape text).length + escapes text = text.length := by
  have saved := @sum_unescape (fun _ => 1) 1 (fun _ _ _ => rfl) text
  simpa using saved

theorem byteLength_unescape (text : List Char) :
    Lexer.byteLength (unescape text) + escapes text = Lexer.byteLength text := by
  have saves (next meant : Char) (resolved : escaped? next = some meant) :
      meant.utf8Size + 1 = '\\'.utf8Size + next.utf8Size := by
    unfold escaped? at resolved
    split at resolved <;> cases resolved <;> decide
  have sum (text : List Char) : Lexer.byteLength text = (text.map Char.utf8Size).sum := by
    simp [Lexer.byteLength, List.sum, List.foldr_map]
  rw [sum, sum, ← sum_unescape saves text, Nat.one_mul]

/-- Resolving escapes makes no quote and loses none. -/
theorem count_unescape (text : List Char) : (unescape text).count '"' = text.count '"' := by
  have saves (next meant : Char) (resolved : escaped? next = some meant) :
      (if meant = '"' then 1 else 0) + 0 =
        (if '\\' = '"' then 1 else 0) + (if next = '"' then 1 else 0) := by
    unfold escaped? at resolved
    split at resolved <;> cases resolved <;> decide
  have sum (text : List Char) :
      text.count '"' = (text.map fun character => if character = '"' then 1 else 0).sum := by
    induction text with
    | nil => rfl
    | cons character text inductionHypothesis =>
      rw [List.count_cons, inductionHypothesis, List.map_cons, List.sum_cons, Nat.add_comm]
      simp
  rw [sum, sum, ← sum_unescape saves text, Nat.zero_mul, Nat.add_zero]

/-! ### Strings between quotes -/

theorem isClosed_pair (next : Char) (text : List Char) :
    Token.isClosed ('\\' :: next :: text) = Token.isClosed text := by
  rw [Token.isClosed]

/-- What stands between quotes does not end in an odd run of backslashes. -/
theorem dangles_of_isClosed {raw : List Char} (closed : Token.isClosed raw = true) :
    dangles raw = false := by
  induction raw using pairs_induction with
  | nil => rfl
  | alone => exact absurd closed (by decide)
  | pair next rest inductionHypothesis =>
    rw [isClosed_pair] at closed
    rw [dangles_pair, inductionHypothesis closed]
  | plain character rest plain inductionHypothesis =>
    have noQuote : character ≠ '"' := by
      rintro rfl
      exact absurd closed Bool.false_ne_true
    rw [isClosed_cons noQuote plain] at closed
    rw [dangles_cons plain, inductionHypothesis closed]

/-- A quote that stands between quotes is taken along by a backslash before it. -/
theorem exists_backslash_of_isClosed {raw front behind : List Char}
    (closed : Token.isClosed raw = true) (whole : raw = front ++ '"' :: behind) :
    ∃ before, front = before ++ ['\\'] ∧ dangles before = false := by
  induction raw using pairs_induction generalizing front with
  | nil => simp at whole
  | alone => exact absurd closed (by decide)
  | pair next rest inductionHypothesis =>
    rw [isClosed_pair] at closed
    match front with
    | [] => simp at whole
    | [slash] =>
      obtain ⟨rfl, -⟩ := List.cons.inj whole
      exact ⟨[], rfl, rfl⟩
    | slash :: other :: front =>
      simp only [List.cons_append, List.cons.injEq] at whole
      obtain ⟨rfl, rfl, tail⟩ := whole
      obtain ⟨before, rfl, even⟩ := inductionHypothesis closed tail
      exact ⟨'\\' :: next :: before, rfl, (dangles_pair next before).trans even⟩
  | plain character rest plain inductionHypothesis =>
    have noQuote : character ≠ '"' := by
      rintro rfl
      exact absurd closed Bool.false_ne_true
    rw [isClosed_cons noQuote plain] at closed
    match front with
    | [] =>
      obtain ⟨quote, -⟩ := List.cons.inj whole
      exact absurd quote noQuote
    | other :: front =>
      obtain ⟨rfl, tail⟩ := List.cons.inj whole
      obtain ⟨before, rfl, even⟩ := inductionHypothesis closed tail
      exact ⟨character :: before, rfl, (dangles_cons plain before).trans even⟩

/-- An escape begins at a backslash that nothing before it takes along. -/
theorem begins_append (front : List Char) (next : Char) (behind : List Char) :
    begins (front ++ '\\' :: next :: behind) front.length =
      (!dangles front && (escaped? next).isSome) := by
  simp [begins]

/-- Where an escape begins, one character is left of it. -/
theorem unescape_of_begins {front behind : List Char} {next : Char}
    (begun : begins (front ++ '\\' :: next :: behind) front.length = true) :
    ∃ meant, escaped? next = some meant ∧
      unescape (front ++ '\\' :: next :: behind) = unescape front ++ meant :: unescape behind := by
  rw [begins_append, Bool.and_eq_true, Bool.not_eq_true'] at begun
  obtain ⟨meant, known⟩ := Option.isSome_iff_exists.mp begun.2
  refine ⟨meant, known, ?_⟩
  rw [unescape_append begun.1, unescape_pair, known]
  rfl

/-- Where a text that stands between quotes has its escapes. -/
structure Aligned (raw : String) : Prop where
  whole : dangles raw.toList = false
  /-- Resolving it does not depend on what follows. -/
  splits (later : String) : unescaped (raw ++ later) = unescaped raw ++ unescaped later
  /-- Each escape stands for one character, and what is around it is resolved on its own. -/
  resolves (front behind : List Char) (next : Char)
    (escape : raw.toList = front ++ '\\' :: next :: behind)
    (begun : begins raw.toList front.length = true) :
    ∃ meant, escaped? next = some meant ∧
      unescape raw.toList = unescape front ++ meant :: unescape behind
  /-- Each quote is the end of an escape, and the quote is left of it. -/
  quotes (front behind : List Char) (quote : raw.toList = front ++ '"' :: behind) :
    ∃ before, front = before ++ ['\\'] ∧ begins raw.toList before.length = true ∧
      unescape raw.toList = unescape before ++ '"' :: unescape behind
  quoteCount : (unescaped raw).toList.count '"' = raw.toList.count '"'
  length : (unescaped raw).length + escapes raw.toList = raw.length
  byteSize : (unescaped raw).utf8ByteSize + escapes raw.toList = raw.utf8ByteSize

theorem unescaped_append {front : String} (whole : dangles front.toList = false) (back : String) :
    unescaped (front ++ back) = unescaped front ++ unescaped back := by
  rw [unescaped, String.toList_append, unescape_append whole, String.ofList_append]
  rfl

theorem aligned_of_isClosed {raw : String} (closed : Token.isClosed raw.toList = true) :
    Aligned raw where
  whole := dangles_of_isClosed closed
  splits := unescaped_append (dangles_of_isClosed closed)
  resolves front behind next escape begun := by
    rw [escape] at begun ⊢
    exact unescape_of_begins begun
  quotes front behind quote := by
    obtain ⟨before, rfl, even⟩ := exists_backslash_of_isClosed closed quote
    rw [List.append_assoc, List.singleton_append] at quote
    refine ⟨before, rfl, ?_, ?_⟩
    · rw [quote, begins_append, even]
      rfl
    · rw [quote, unescape_append even]
      rfl
  quoteCount := by rw [unescaped, String.toList_ofList, count_unescape]
  length := by
    rw [unescaped, String.length_ofList, length_unescape, String.length_toList]
  byteSize := by
    rw [← Lexer.byteLength_toList, ← Lexer.byteLength_toList raw, unescaped, String.toList_ofList,
      byteLength_unescape]

/-- The lexer and the resolving of escapes agree on where escapes begin and end: what the lexer
takes for the text of a string is resolved on its own, whatever follows, and each quote in it is the
end of an escape. A front of any text is resolved on its own exactly if it does not end in an odd
run of backslashes. -/
theorem escapes_align :
    (∀ (lexer after : Lexer) (raw : String) (span : Span),
      lexer.next = (.ok ⟨.string raw, span⟩, after) → Aligned raw) ∧
    ∀ front : String, dangles front.toList = false ↔
      ∀ back, unescaped (front ++ back) = unescaped front ++ unescaped back := by
  refine ⟨fun lexer after raw span read => ?_, fun front => ⟨unescaped_append, fun splits => ?_⟩⟩
  · obtain ⟨-, proper, -⟩ := Token.written_of_read? (Token.head?_dropWhile_isBlank _)
      (Lexer.read?_of_next read) Token.noConfusion
    exact aligned_of_isClosed proper
  · rw [← forall_unescape_append_iff]
    intro back
    have same := congrArg String.toList (splits (String.ofList back))
    simpa [unescaped] using same

/-- A run of three backslashes before a quote, one that stands for itself before a letter, and a
pair at the end. -/
theorem escapes_align_runs :
    (Lexer.ofLine " \"\\\\\\\"\\x\\\\\" " 1).next =
        (.ok ⟨.string "\\\\\\\"\\x\\\\", ⟨1, 2, 1, 11⟩⟩, ⟨1, 12, 11, [' ']⟩) ∧
      Aligned "\\\\\\\"\\x\\\\" := by
  have read : (Lexer.ofLine " \"\\\\\\\"\\x\\\\\" " 1).next =
      (.ok ⟨.string "\\\\\\\"\\x\\\\", ⟨1, 2, 1, 11⟩⟩, ⟨1, 12, 11, [' ']⟩) := by decide +kernel
  exact ⟨read, escapes_align.1 _ _ _ _ read⟩

end YaraReport.Text
