/-
This file describes rule headers by their tokens and proves that reading a
header accepts exactly those and makes exactly the rule that they denote.

A header is a name and two bracketed lists. Commas cut each list into pieces. A
piece of the tag list stands for a tag when it begins with a word or a string; a
piece of the metadata list that begins with a name must be an entry. Pieces that
begin otherwise are left out and counted, except for an empty piece directly
before the closing bracket.
-/

import Mathlib.Data.List.Forall2
import Mathlib.Data.List.TakeWhile
import YaraReport.Proofs.Collections
import YaraReport.Proofs.Text.Lines
import YaraReport.Proofs.Scan.Feeding
import YaraReport.Proofs.Scan.Integers
import YaraReport.Proofs.Token.Reading

namespace YaraReport.Header

open Token (Reads)

/-! ### The format -/

/-- Whether a piece of a metadata list begins with a name. -/
def isNamed : List Token → Bool
  | .identifier _ :: _ => true
  | _ => false

/-- The tag that a piece of a tag list stands for. -/
def tagOf? : List Token → Option String
  | .identifier text :: _ | .number text :: _ | .string text :: _ => some text
  | _ => none

/-- A token denotes a metadata value: a string the text that its escapes stand for, a number
the machine integer of its value, a word a truth value in any case of its letters. -/
inductive Denotes : Token → MetaValue → Prop where
  | string (raw : String) : Denotes (.string raw) (.string (Text.unescaped raw))
  | integer {text : String} {value : Int} (numeral : Text.signed? text.toList = some value)
      (least : -0x8000000000000000 ≤ value) (most : value < 0x8000000000000000) :
      Denotes (.number text) (.integer (Int64.ofInt value))
  | boolean {text : String} {value : Bool}
      (word : text.toList.map Char.toLower = (if value then "true" else "false").toList) :
      Denotes (.identifier text) (.boolean value)

/-- A piece of a metadata list is an entry: a name, an equals sign and a value, after which any
tokens may follow. -/
def IsEntry (piece : List Token) (entry : Meta) : Prop :=
  ∃ value ignored, piece = .identifier entry.identifier :: .equals :: value :: ignored ∧
    Denotes value entry.value

/-- The pieces of a list but an empty last one. -/
def listed : List (List Token) → List (List Token)
  | [] => []
  | [[]] => []
  | piece :: pieces => piece :: listed pieces

/-- The tokens of a rule header up to the bracket that closes its second list. -/
structure Shape where
  name : String
  /-- The tokens between the first brackets. -/
  tags : List Token
  metadata : List Token

namespace Shape

/-- The tokens in order. -/
def tokens (shape : Shape) : List Token :=
  .identifier shape.name :: .leftBracket :: (shape.tags ++ [.rightBracket]) ++
    .leftBracket :: (shape.metadata ++ [.rightBracket])

theorem tokens_eq (shape : Shape) :
    shape.tokens = (.identifier shape.name :: .leftBracket :: (shape.tags ++ [.rightBracket]) ++
      .leftBracket :: shape.metadata) ++ [.rightBracket] := by
  rw [tokens, List.append_assoc]
  rfl

/-- The pieces of the tag list. -/
def tagPieces (shape : Shape) : List (List Token) := shape.tags.splitOn .comma

/-- The pieces of the metadata list. -/
def metadataPieces (shape : Shape) : List (List Token) := shape.metadata.splitOn .comma

/-- Neither list holds the bracket that closes it. -/
structure Bracketed (shape : Shape) : Prop where
  tags : .rightBracket ∉ shape.tags
  metadata : .rightBracket ∉ shape.metadata

/-- A header that follows the format. -/
structure WellFormed (shape : Shape) : Prop extends shape.Bracketed where
  /-- Every piece of the metadata list that begins with a name is an entry. -/
  entries : ∀ piece ∈ shape.metadataPieces, isNamed piece = true → ∃ entry, IsEntry piece entry

/-- The rule that a header denotes. -/
structure Makes (shape : Shape) (rule : Rule) : Prop where
  identifier : rule.identifier = shape.name
  tags : rule.tags = shape.tagPieces.filterMap tagOf?
  metadata : List.Forall₂ IsEntry (shape.metadataPieces.filter isNamed) rule.metadata
  strings : rule.strings = []

/-- The number of pieces that are left out. -/
def skipped (shape : Shape) : Nat :=
  (listed shape.tagPieces).countP (fun piece => (tagOf? piece).isNone) +
    (listed shape.metadataPieces).countP fun piece => !isNamed piece

end Shape

/-! ### The groups of a list -/

/-- The pieces of a list with the tokens that end them: commas, and the closing bracket at
last. -/
def stopped : List (List Token) → List (List Token × Token)
  | [] => []
  | [last] => [(last, .rightBracket)]
  | piece :: next :: pieces => (piece, .comma) :: stopped (next :: pieces)

/-- The tokens of a group before the one that stops it. -/
def pieceOf (group : Group) : List Token := group.body.map Lexeme.token

/-- The tokens of a group and the token that stops it. -/
def parts (group : Group) : List Token × Token := (pieceOf group, group.stop.token)

theorem stopped_cons_splitOn (piece tokens : List Token) :
    stopped (piece :: tokens.splitOn .comma) = (piece, .comma) :: stopped (tokens.splitOn .comma) := by
  obtain ⟨next, pieces, split⟩ := List.exists_cons_of_ne_nil (List.splitOn_ne_nil .comma tokens)
  rw [split, stopped]

/-- The kinds that end a group of a list. -/
theorem mem_separators_iff (token : Token) :
    token.kind ∈ [Token.Kind.comma, .rightBracket] ↔ token = .comma ∨ token = .rightBracket := by
  cases token <;> simp only [Token.kind, List.mem_cons, reduceCtorEq, List.not_mem_nil, or_self, or_false, or_true]

theorem no_separator {piece : List Token} (whole : .comma ∉ piece)
    (inside : .rightBracket ∉ piece) :
    ∀ token ∈ piece, token.kind ∉ [Token.Kind.comma, .rightBracket] := by
  intro token member stop
  rcases (mem_separators_iff token).mp stop with rfl | rfl
  · exact whole member
  · exact inside member

/-- A list is read to its closing bracket, in groups that are its pieces. -/
theorem entries_of_reads {lexer : Lexer} {tokens : List Token} {rest : List Char}
    (reads : Reads lexer.rest (tokens ++ [.rightBracket]) rest)
    (inside : .rightBracket ∉ tokens) :
    (entries lexer).failure = none ∧
      (entries lexer).groups.map parts = stopped (tokens.splitOn .comma) ∧
      (entries lexer).after.rest = rest := by
  induction tokens using Text.stretches_induction Token.comma generalizing lexer with
  | last piece whole =>
    obtain ⟨group, after, read, groupBody, groupStop, left⟩ :=
      Lexer.nextUntil_of_reads reads (no_separator whole inside)
        ((mem_separators_iff _).mpr (.inr rfl))
    have stopKind : group.stop.kind = .rightBracket := congrArg Token.kind groupStop
    rw [List.splitOn_eq_singleton whole, entries_eq, read]
    dsimp only
    rw [if_pos stopKind]
    refine ⟨rfl, ?_, left⟩
    rw [List.map_singleton, parts, pieceOf, groupBody, groupStop, stopped]
  | more piece others first inductionHypothesis =>
    rw [List.mem_append, not_or, List.mem_cons, not_or] at inside
    rw [List.append_assoc, List.cons_append, ← List.singleton_append, ← List.append_assoc] at reads
    obtain ⟨middle, reads, readsOthers⟩ := reads.split
    obtain ⟨group, after, read, groupBody, groupStop, left⟩ :=
      Lexer.nextUntil_of_reads reads (no_separator first inside.1)
        ((mem_separators_iff _).mpr (.inl rfl))
    have stopKind : group.stop.kind = .comma := congrArg Token.kind groupStop
    rw [← left] at readsOthers
    obtain ⟨closed, groups, left⟩ := inductionHypothesis readsOthers inside.2.2
    rw [List.splitOn_append_cons_self_of_not_mem first, stopped_cons_splitOn, entries_eq, read]
    dsimp only
    rw [if_neg (by rw [stopKind]; exact Token.Kind.noConfusion), if_pos stopKind]
    refine ⟨closed, ?_, left⟩
    rw [List.map_cons, groups, parts, pieceOf, groupBody, groupStop]

/-- A list that is read to its closing bracket is made of the tokens before that. -/
theorem reads_of_entries (lexer : Lexer) (closed : (entries lexer).failure = none) :
    ∃ tokens, .rightBracket ∉ tokens ∧
      Reads lexer.rest (tokens ++ [.rightBracket]) (entries lexer).after.rest := by
  fun_induction entries lexer with
  | case1 => cases closed
  | case2 lexer group after found bracket =>
    obtain ⟨reads, inside, -⟩ :=
      Lexer.reads_of_nextUntil found (by rw [bracket]; exact Token.Kind.noConfusion)
    have stop : group.stop.token = .rightBracket :=
      ((mem_separators_iff _).mp (List.mem_cons_of_mem _ (bracket ▸ List.mem_cons_self))).resolve_left
        fun comma => by rw [Lexeme.kind, comma] at bracket; cases bracket
    rw [stop] at reads
    refine ⟨_, fun member => inside _ member ?_, reads⟩
    exact (mem_separators_iff _).mpr (.inr rfl)
  | case3 lexer group after found bracket comma _ inductionHypothesis =>
    obtain ⟨reads, inside, -⟩ :=
      Lexer.reads_of_nextUntil found (by rw [comma]; exact Token.Kind.noConfusion)
    obtain ⟨tokens, outside, others⟩ := inductionHypothesis closed
    refine ⟨group.body.map Lexeme.token ++ [group.stop.token] ++ tokens, ?_, ?_⟩
    · rw [List.mem_append, List.mem_append, List.mem_singleton]
      rintro ((member | stop) | member)
      · exact inside _ member ((mem_separators_iff _).mpr (.inr rfl))
      · rw [Lexeme.kind, ← stop] at comma
        cases comma
      · exact outside member
    · rw [List.append_assoc]
      exact reads.append others
  | case4 => cases closed

/-! ### The pieces of a list -/

theorem stopped_pieces (pieces : List (List Token)) :
    (stopped pieces).map Prod.fst = pieces := by
  fun_induction stopped pieces with
  | case1 => rfl
  | case2 => rfl
  | case3 piece next pieces inductionHypothesis => rw [List.map_cons, inductionHypothesis]

theorem stopped_separators (pieces : List (List Token)) :
    ∀ part ∈ stopped pieces, part.2 = .comma ∨ part.2 = .rightBracket := by
  fun_induction stopped pieces with
  | case1 => exact fun _ member => absurd member List.not_mem_nil
  | case2 last =>
    intro part member
    rw [List.mem_singleton] at member
    exact .inr (member ▸ rfl)
  | case3 piece next pieces inductionHypothesis =>
    intro part member
    rcases List.mem_cons.mp member with rfl | later
    · exact .inl rfl
    · exact inductionHypothesis part later

/-- The groups of a list that is read to its end are its pieces. -/
theorem map_pieceOf {groups : List Group} {pieces : List (List Token)}
    (same : groups.map parts = stopped pieces) : groups.map pieceOf = pieces := by
  rw [← stopped_pieces pieces, ← same, List.map_map]
  rfl

/-- The groups of a list that is read to its end are stopped by separators. -/
theorem stop_of_mem {groups : List Group} {pieces : List (List Token)}
    (same : groups.map parts = stopped pieces) :
    ∀ group ∈ groups, group.stop.token = .comma ∨ group.stop.token = .rightBracket := by
  intro group member
  refine stopped_separators pieces (parts group) ?_
  rw [← same]
  exact List.mem_map_of_mem member

theorem isClosing_eq (group : Group) :
    group.isClosing = ((pieceOf group).isEmpty && decide (group.stop.token = .rightBracket)) := by
  have kinds : group.stop.kind = .rightBracket ↔ group.stop.token = .rightBracket := by
    unfold Lexeme.kind
    cases group.stop.token <;> simp only [Token.kind, reduceCtorEq]
  rw [Group.isClosing, pieceOf, List.isEmpty_map, decide_eq_decide.mpr kinds]

/-- Counting groups but the closing one is counting pieces but an empty last one. -/
theorem countP_listed (test : List Token → Bool) {groups : List Group}
    {pieces : List (List Token)} (same : groups.map parts = stopped pieces) :
    groups.countP (fun group => !group.isClosing && test (pieceOf group)) =
      (listed pieces).countP test := by
  fun_induction stopped pieces generalizing groups with
  | case1 =>
    rw [List.map_eq_nil_iff.mp same]
    rfl
  | case2 last =>
    obtain ⟨group, rfl, part⟩ := List.map_eq_singleton_iff.mp same
    obtain ⟨rfl, stop⟩ := Prod.mk.inj part
    rw [List.countP_singleton, isClosing_eq, stop]
    cases pieceOf group with
    | nil => rfl
    | cons token tokens =>
      rw [listed, listed, List.countP_singleton]
      · rfl
      · exact fun empty => absurd empty (List.cons_ne_nil _ _)
  | case3 piece next pieces inductionHypothesis =>
    obtain ⟨group, others, rfl, part, rest⟩ := List.map_eq_cons_iff.mp same
    obtain ⟨rfl, stop⟩ := Prod.mk.inj part
    have inner : (!group.isClosing && test (pieceOf group)) = test (pieceOf group) := by
      rw [isClosing_eq, stop, decide_eq_false Token.noConfusion, Bool.and_false, Bool.not_false,
        Bool.true_and]
    have goesOn : listed (pieceOf group :: next :: pieces) =
        pieceOf group :: listed (next :: pieces) := by
      rw [listed]
      exact fun _ empty => List.cons_ne_nil _ _ empty
    rw [List.countP_cons, inner, inductionHypothesis rest, goesOn, List.countP_cons]

theorem first_token (group : Group) :
    group.first.token = (pieceOf group).head?.getD group.stop.token := by
  rw [Group.first, pieceOf, List.head?_map]
  cases group.body.head? <;> rfl

theorem tokenAt_token (group : Group) (position : Nat) :
    (tokenAt group position).token = (pieceOf group)[position]?.getD group.stop.token := by
  rw [tokenAt, pieceOf, List.getElem?_map]
  cases group.body[position]? <;> rfl

/-! ### Tags -/

theorem tag?_eq {group : Group}
    (separator : group.stop.token = .comma ∨ group.stop.token = .rightBracket) :
    tag? group = tagOf? (pieceOf group) := by
  unfold tag?
  rw [first_token]
  cases pieceOf group with
  | nil => rcases separator with comma | bracket <;> simp only [List.head?_nil, Option.getD_none, *] <;> rfl
  | cons token tokens => cases token <;> rfl

theorem tags_eq {groups : List Group} {pieces : List (List Token)}
    (same : groups.map parts = stopped pieces) : tags groups = pieces.filterMap tagOf? := by
  rw [tags, ← map_pieceOf same, List.filterMap_map]
  exact List.filterMap_congr fun group member => tag?_eq (stop_of_mem same group member)

/-- Every piece of a tag list that stands for no tag is noted, but an empty last one. -/
theorem skippedCount_tagNotes {groups : List Group} {pieces : List (List Token)}
    (same : groups.map parts = stopped pieces) :
    Note.skippedCount (tagNotes groups) =
      (listed pieces).countP fun piece => (tagOf? piece).isNone := by
  rw [← countP_listed _ same, Note.skippedCount, tagNotes, List.countP_filterMap]
  refine List.countP_congr fun group member => ?_
  rw [tag?_eq (stop_of_mem same group member)]
  cases group.isClosing <;> cases tagOf? (pieceOf group) <;> exact Iff.rfl

/-! ### Metadata -/

theorem boolean?_eq_some_iff (text : String) (value : Bool) :
    boolean? text = some value ↔
      text.toList.map Char.toLower = (if value then "true" else "false").toList := by
  have same (word : String) : String.ofList (text.toList.map Char.toLower) = word ↔
      text.toList.map Char.toLower = word.toList := by
    rw [← String.toList_inj, String.toList_ofList]
  rw [← same]
  unfold boolean?
  split <;> rename_i word
  · rw [word]
    cases value <;> decide
  · rw [word]
    cases value <;> decide
  · rename_i other
    constructor
    · intro none
      cases none
    · intro equal
      cases value
      · exact absurd equal word
      · exact absurd equal other

/-- The value of an entry is read where its token denotes it. -/
theorem metadataValue_ok_iff (lexeme : Lexeme) (value : MetaValue) :
    metadataValue lexeme = .ok value ↔ Denotes lexeme.token value := by
  unfold metadataValue
  split
  · rename_i raw token
    rw [token]
    constructor
    · intro same
      cases same
      exact .string raw
    · intro denotes
      cases denotes
      rfl
  · rename_i text token
    rw [token]
    constructor
    · intro same
      split at same
      · rename_i number found
        cases same
        obtain ⟨value, numeral, least, most, rfl⟩ := (integer?_eq_some_iff _ _).mp found
        exact .integer numeral least most
      · cases same
    · intro denotes
      cases denotes with
      | integer numeral least most =>
        rw [(integer?_eq_some_iff _ _).mpr ⟨_, numeral, least, most, rfl⟩]
  · rename_i text token
    rw [token]
    constructor
    · intro same
      split at same
      · rename_i truth found
        cases same
        exact .boolean ((boolean?_eq_some_iff _ _).mp found)
      · cases same
    · intro denotes
      cases denotes with
      | boolean word => rw [(boolean?_eq_some_iff _ _).mpr word]
  · rename_i noString noNumber noWord
    constructor
    · intro same
      cases same
    · intro denotes
      generalize token : lexeme.token = found at denotes
      cases denotes with
      | string raw => exact absurd token (noString raw)
      | integer => exact absurd token (noNumber _)
      | boolean => exact absurd token (noWord _)

theorem map_eq_ok_iff {Error Value Image : Type} (result : Except Error Value)
    (function : Value → Image) (image : Image) :
    result.map function = .ok image ↔ ∃ value, result = .ok value ∧ function value = image := by
  cases result with
  | error => simp only [Except.map, reduceCtorEq, false_and, exists_false]
  | ok value => simp only [Except.map, Except.ok.injEq, exists_eq_left']

theorem not_denotes_separator {token : Token} {value : MetaValue}
    (separator : token = .comma ∨ token = .rightBracket) : ¬ Denotes token value := by
  rintro denotes
  rcases separator with rfl | rfl <;> cases denotes

/-- A group that begins with a name is read as an entry where it is one. -/
theorem entry_ok_iff {group : Group} {name : String} {tail : List Token} {value : Meta}
    (separator : group.stop.token = .comma ∨ group.stop.token = .rightBracket)
    (named : pieceOf group = .identifier name :: tail) :
    entry name group = .ok value ↔ IsEntry (pieceOf group) value := by
  have second := tokenAt_token group 1
  have third := tokenAt_token group 2
  rw [named] at second third ⊢
  have isEquals : (tokenAt group 1).kind = .equals ↔ (tokenAt group 1).token = .equals := by
    unfold Lexeme.kind
    cases (tokenAt group 1).token <;> simp only [Token.kind, reduceCtorEq]
  unfold entry
  split <;> rename_i equals
  · rw [isEquals] at equals
    rw [map_eq_ok_iff]
    constructor
    · rintro ⟨read, found, rfl⟩
      have denotes := (metadataValue_ok_iff _ _).mp found
      rcases tail with _ | ⟨sign, _ | ⟨token, ignored⟩⟩
      · rcases separator with comma | bracket
        · cases comma.symm.trans (second.symm.trans equals)
        · cases bracket.symm.trans (second.symm.trans equals)
      · rw [third] at denotes
        exact absurd denotes (not_denotes_separator separator)
      · rw [third] at denotes
        refine ⟨token, ignored, ?_, denotes⟩
        rw [← second.symm.trans equals]
        rfl
    · rintro ⟨token, ignored, shape, denotes⟩
      cases shape
      refine ⟨value.value, (metadataValue_ok_iff _ _).mpr ?_, rfl⟩
      rw [third]
      exact denotes
  · rw [isEquals] at equals
    constructor
    · intro read
      cases read
    · rintro ⟨token, ignored, shape, -⟩
      rw [(List.cons.inj shape).2] at second
      exact absurd second equals

theorem isNamed_eq_true {piece : List Token} (named : isNamed piece = true) :
    ∃ name tail, piece = .identifier name :: tail := by
  unfold isNamed at named
  split at named
  · exact ⟨_, _, rfl⟩
  · cases named

theorem skippedCount_ignoredNotes (name : String) (group : Group) :
    Note.skippedCount (ignoredNotes name group) = 0 := by
  unfold ignoredNotes
  split <;> rfl

theorem metadata_cons_closing {group : Group} (groups : List Group)
    (closing : group.isClosing = true) : metadata (group :: groups) = metadata groups := by
  rw [metadata, if_pos closing]

theorem metadata_cons_named {group : Group} {name : String} {tail : List Token}
    (groups : List Group) (piece : pieceOf group = .identifier name :: tail) :
    metadata (group :: groups) =
      match entry name group with
      | .error violation => ⟨[], .error violation⟩
      | .ok value =>
        ⟨ignoredNotes name group ++ (metadata groups).notes,
          (metadata groups).outcome.map (value :: ·)⟩ := by
  have begins := first_token group
  have goesOn : ¬ group.isClosing = true := by
    rw [isClosing_eq, piece]
    exact Bool.false_ne_true
  rw [piece] at begins
  rw [metadata, if_neg goesOn]
  split
  · rename_i token
    cases token.symm.trans begins
    rfl
  · rename_i other
    exact absurd begins (other name)

theorem metadata_cons_unnamed {group : Group} (groups : List Group)
    (separator : group.stop.token = .comma ∨ group.stop.token = .rightBracket)
    (goesOn : ¬ group.isClosing = true) (unnamed : ¬ isNamed (pieceOf group) = true) :
    metadata (group :: groups) =
      ⟨.skippedEntry .metadata group.first :: (metadata groups).notes,
        (metadata groups).outcome⟩ := by
  have first := first_token group
  rw [metadata, if_neg goesOn]
  split
  · rename_i name begins
    rw [begins] at first
    refine absurd ?_ unnamed
    cases piece : pieceOf group with
    | nil =>
      rw [piece] at first
      rcases separator with comma | bracket
      · cases first.trans comma
      · cases first.trans bracket
    | cons token tail =>
      rw [piece] at first
      rw [show token = .identifier name from first.symm]
      rfl
  · rfl

theorem pieceOf_of_isClosing {group : Group} (closing : group.isClosing = true) :
    pieceOf group = [] := by
  rw [isClosing_eq, Bool.and_eq_true, List.isEmpty_iff] at closing
  exact closing.1

/-- The metadata of a list is made of the entries among its groups. -/
theorem metadata_ok_iff (groups : List Group)
    (separators : ∀ group ∈ groups, group.stop.token = .comma ∨ group.stop.token = .rightBracket)
    (values : List Meta) :
    (metadata groups).outcome = .ok values ↔
      List.Forall₂ IsEntry ((groups.map pieceOf).filter isNamed) values := by
  induction groups generalizing values with
  | nil =>
    rw [List.map_nil, List.filter_nil, List.forall₂_nil_left_iff, metadata]
    exact ⟨fun same => by cases same; rfl, fun same => by rw [same]⟩
  | cons group groups inductionHypothesis =>
    have separator := separators group List.mem_cons_self
    have others := inductionHypothesis fun other member =>
      separators other (List.mem_cons_of_mem _ member)
    rw [List.map_cons]
    by_cases closing : group.isClosing = true
    · rw [metadata_cons_closing groups closing, pieceOf_of_isClosing closing,
        List.filter_cons_of_neg Bool.false_ne_true]
      exact others values
    by_cases named : isNamed (pieceOf group) = true
    · obtain ⟨name, tail, piece⟩ := isNamed_eq_true named
      rw [metadata_cons_named groups piece, List.filter_cons_of_pos named,
        List.forall₂_cons_left_iff]
      cases read : entry name group with
      | error violation =>
        constructor
        · intro outcome
          cases outcome
        · rintro ⟨value, rest, isEntry, -, rfl⟩
          rw [← entry_ok_iff separator piece, read] at isEntry
          cases isEntry
      | ok value =>
        rw [map_eq_ok_iff]
        constructor
        · rintro ⟨rest, outcome, rfl⟩
          exact ⟨value, rest, (entry_ok_iff separator piece).mp read, (others rest).mp outcome,
            rfl⟩
        · rintro ⟨own, rest, isEntry, entries, rfl⟩
          rw [← entry_ok_iff separator piece, read, Except.ok.injEq] at isEntry
          exact ⟨rest, (others rest).mpr entries, by rw [isEntry]⟩
    · rw [metadata_cons_unnamed groups separator closing named, List.filter_cons_of_neg named]
      exact others values

/-- Every group of a metadata list that does not begin with a name is noted, but the closing
one. -/
theorem skippedCount_metadata (groups : List Group)
    (separators : ∀ group ∈ groups, group.stop.token = .comma ∨ group.stop.token = .rightBracket)
    (values : List Meta) (read : (metadata groups).outcome = .ok values) :
    Note.skippedCount (metadata groups).notes =
      groups.countP fun group => !group.isClosing && !isNamed (pieceOf group) := by
  induction groups generalizing values with
  | nil => rfl
  | cons group groups inductionHypothesis =>
    have separator := separators group List.mem_cons_self
    have others := inductionHypothesis fun other member =>
      separators other (List.mem_cons_of_mem _ member)
    by_cases closing : group.isClosing = true
    · rw [metadata_cons_closing groups closing] at read ⊢
      rw [others values read, List.countP_cons_of_neg]
      rw [closing]
      exact Bool.false_ne_true
    by_cases named : isNamed (pieceOf group) = true
    · obtain ⟨name, tail, piece⟩ := isNamed_eq_true named
      rw [metadata_cons_named groups piece] at read ⊢
      cases found : entry name group with
      | error violation =>
        rw [found] at read
        cases read
      | ok value =>
        rw [found] at read
        obtain ⟨rest, outcome, -⟩ := (map_eq_ok_iff _ _ _).mp read
        have none := skippedCount_ignoredNotes name group
        rw [Note.skippedCount] at none others ⊢
        rw [List.countP_append, none, Nat.zero_add, others rest outcome, List.countP_cons_of_neg]
        rw [named, Bool.not_true, Bool.and_false]
        exact Bool.false_ne_true
    · rw [metadata_cons_unnamed groups separator closing named] at read ⊢
      have rest := others values read
      rw [Note.skippedCount] at rest ⊢
      rw [List.countP_cons_of_pos (by rfl), rest, List.countP_cons_of_pos]
      rw [Bool.eq_false_iff.mpr closing, Bool.eq_false_iff.mpr named]
      rfl

/-! ### The whole header -/

/-- A header opens with its name and a bracket. -/
theorem opening_of_reads {lexer : Lexer} {name : String} {rest : List Char}
    (reads : Reads lexer.rest [.identifier name, .leftBracket] rest) :
    ∃ after, opening lexer = .ok (name, after) ∧ after.rest = rest := by
  obtain ⟨_, nameFirst, -, reads⟩ := reads.cons_inv
  obtain ⟨_, openFirst, -, reads⟩ := reads.cons_inv
  cases reads
  obtain ⟨lexeme, afterName, readName, nameToken, rfl⟩ := Lexer.expect_of_read? lexer nameFirst
  obtain ⟨_, after, readOpen, -, rfl⟩ := Lexer.expect_of_read? afterName openFirst
  have readName : lexer.expect .identifier = (.ok lexeme, afterName) := readName
  have readOpen : afterName.expect .leftBracket = (.ok _, after) := readOpen
  refine ⟨after, ?_, rfl⟩
  unfold opening
  rw [readName]
  dsimp only
  rw [readOpen, nameToken]
  rfl

theorem reads_of_opening {lexer after : Lexer} {name : String}
    (opened : opening lexer = .ok (name, after)) :
    Reads lexer.rest [.identifier name, .leftBracket] after.rest := by
  unfold opening at opened
  split at opened
  · cases opened
  rename_i lexeme afterName readName
  split at opened
  · cases opened
  rename_i readOpen
  cases opened
  obtain ⟨nameFirst, nameKind⟩ := Lexer.read?_of_expect readName
  obtain ⟨openFirst, openKind⟩ := Lexer.read?_of_expect readOpen
  obtain ⟨text, nameToken⟩ := Token.eq_identifier_of_kind nameKind
  rw [Token.eq_leftBracket_of_kind openKind] at openFirst
  rw [nameToken] at nameFirst ⊢
  exact .next nameFirst Token.noConfusion (.single openFirst Token.noConfusion)

/-- Reading a header comes down to the groups of its two lists. -/
theorem read_of_reads (line : Nat) {text : String} {shape : Shape} {rest : List Char}
    (reads : Reads text.toList shape.tokens rest) (bracketed : shape.Bracketed) :
    ∃ (tagGroups : List Group) (list : Entries),
      read line text =
          ⟨tagNotes tagGroups ++ (assemble shape.name tagGroups list).notes,
            (assemble shape.name tagGroups list).outcome⟩ ∧
        tagGroups.map parts = stopped shape.tagPieces ∧
        list.groups.map parts = stopped shape.metadataPieces ∧ list.failure = none := by
  obtain ⟨middle, front, back⟩ := reads.split
  have front : Reads text.toList
      ([.identifier shape.name, .leftBracket] ++ (shape.tags ++ [.rightBracket])) middle := front
  obtain ⟨_, start, tags⟩ := front.split
  obtain ⟨_, secondFirst, -, metadata⟩ := back.cons_inv
  have start : Reads (Lexer.ofLine text line).rest _ _ := start
  obtain ⟨afterOpen, opened, rfl⟩ := opening_of_reads start
  obtain ⟨tagsClosed, tagGroups, rfl⟩ := entries_of_reads tags bracketed.tags
  obtain ⟨_, afterSecond, readSecond, -, rfl⟩ :=
    Lexer.expect_of_read? (entries afterOpen).after secondFirst
  obtain ⟨closed, groups, -⟩ := entries_of_reads metadata bracketed.metadata
  refine ⟨(entries afterOpen).groups, entries afterSecond, ?_, tagGroups, groups, closed⟩
  have assembled : closing shape.name (entries afterOpen) =
      assemble shape.name (entries afterOpen).groups (entries afterSecond) := by
    have readSecond : (entries afterOpen).after.expect .leftBracket = (.ok _, afterSecond) :=
      readSecond
    unfold closing
    rw [tagsClosed]
    dsimp only
    rw [readSecond]
  unfold read
  rw [opened]
  dsimp only
  rw [assembled]

/-- A header is read as the rule that it denotes, and only where it denotes one. -/
theorem read_ok_iff (line : Nat) {text : String} {shape : Shape} {rest : List Char}
    (reads : Reads text.toList shape.tokens rest) (bracketed : shape.Bracketed) (rule : Rule) :
    (read line text).outcome = .ok rule ↔ shape.Makes rule := by
  obtain ⟨tagGroups, list, same, tagParts, parts, closed⟩ := read_of_reads line reads bracketed
  have values := metadata_ok_iff list.groups (stop_of_mem parts)
  rw [map_pieceOf parts] at values
  rw [same]
  unfold assemble
  rw [closed]
  cases outcome : (metadata list.groups).outcome with
  | error violation =>
    constructor
    · intro read
      cases read
    · intro makes
      cases outcome.symm.trans ((values _).mpr makes.metadata)
  | ok entries =>
    rw [Except.ok.injEq]
    constructor
    · rintro rfl
      exact ⟨rfl, tags_eq tagParts, (values entries).mp outcome, rfl⟩
    · intro makes
      obtain ⟨identifier, tags, metadata, strings⟩ := rule
      have sameEntries := outcome.symm.trans ((values _).mpr makes.metadata)
      have sameTags : tags = shape.tagPieces.filterMap tagOf? := makes.tags
      rw [Rule.mk.injEq]
      exact ⟨makes.identifier.symm, by rw [tags_eq tagParts, sameTags], Except.ok.inj sameEntries,
        makes.strings.symm⟩

/-- Reading a header notes every piece that is left out. -/
theorem skippedCount_read (line : Nat) {text : String} {shape : Shape} {rest : List Char}
    (reads : Reads text.toList shape.tokens rest) (bracketed : shape.Bracketed) {rule : Rule}
    (accepted : (read line text).outcome = .ok rule) :
    Note.skippedCount (read line text).notes = shape.skipped := by
  obtain ⟨tagGroups, list, same, tagParts, parts, closed⟩ := read_of_reads line reads bracketed
  have tagCount := skippedCount_tagNotes tagParts
  rw [same] at accepted ⊢
  unfold assemble at accepted ⊢
  rw [closed] at accepted ⊢
  cases outcome : (metadata list.groups).outcome with
  | error violation =>
    rw [outcome] at accepted
    cases accepted
  | ok entries =>
    have count := skippedCount_metadata list.groups (stop_of_mem parts) entries outcome
    rw [countP_listed (fun piece => !isNamed piece) parts] at count
    dsimp only
    rw [Note.skippedCount] at tagCount count ⊢
    rw [List.countP_append, List.countP_append, tagCount, count]
    rfl

/-- A header that is accepted has the shape of one. -/
theorem exists_shape (line : Nat) {text : String} {rule : Rule}
    (accepted : (read line text).outcome = .ok rule) :
    ∃ shape : Shape, shape.Bracketed ∧ ∃ rest, Reads text.toList shape.tokens rest := by
  unfold read at accepted
  split at accepted
  · cases accepted
  rename_i name afterOpen opened
  unfold closing at accepted
  dsimp only at accepted
  split at accepted
  · cases accepted
  rename_i tagsClosed
  split at accepted
  · cases accepted
  rename_i secondLexeme afterSecond readSecond
  have closed : (entries afterSecond).failure = none := by
    unfold assemble at accepted
    split at accepted
    · cases accepted
    · cases accepted
    · assumption
  obtain ⟨tags, tagsInside, readTags⟩ := reads_of_entries afterOpen tagsClosed
  obtain ⟨metadata, inside, readMetadata⟩ := reads_of_entries afterSecond closed
  obtain ⟨secondFirst, secondKind⟩ := Lexer.read?_of_expect readSecond
  rw [Token.eq_leftBracket_of_kind secondKind] at secondFirst
  refine ⟨⟨name, tags, metadata⟩, ⟨tagsInside, inside⟩, (entries afterSecond).after.rest, ?_⟩
  have front := (reads_of_opening opened).append readTags
  exact front.append (.next secondFirst Token.noConfusion readMetadata)

/-! ### Accepted header lines -/

/-- A header denotes a rule where it follows the format. -/
theorem Shape.wellFormed_iff (shape : Shape) (bracketed : shape.Bracketed) :
    shape.WellFormed ↔ ∃ rule, shape.Makes rule := by
  constructor
  · intro wellFormed
    obtain ⟨metadata, entries⟩ :=
      exists_forall₂ IsEntry (shape.metadataPieces.filter isNamed)
        fun piece member =>
          wellFormed.entries piece (List.mem_filter.mp member).1 (List.mem_filter.mp member).2
    exact ⟨⟨shape.name, shape.tagPieces.filterMap tagOf?, metadata, []⟩, rfl, rfl, entries, rfl⟩
  · rintro ⟨rule, makes⟩
    refine ⟨bracketed, fun piece member named => ?_⟩
    obtain ⟨entry, -, isEntry⟩ :=
      exists_mem_of_forall₂ makes.metadata piece (List.mem_filter.mpr ⟨member, named⟩)
    exact ⟨entry, isEntry⟩

/-- A line that begins with the tokens of a header is not blank. -/
theorem isBlankLine_of_reads {line : String} {shape : Shape} {rest : List Char}
    (reads : Reads line.toList shape.tokens rest) : Text.isBlankLine line = false := by
  obtain ⟨middle, first, visible, -⟩ := reads.cons_inv
  rw [Text.isBlankLine, Bool.eq_false_iff]
  intro blank
  rw [List.dropWhile_eq_nil_iff.mpr (List.all_eq_true.mp blank)] at first
  cases first

/-- What follows a header does not make it a match line. -/
theorem isMarked_swap {front rest other : List Char} {shape : Shape}
    (reads : Reads (front ++ rest) shape.tokens rest) :
    MatchLine.marker.isPrefixOf (front ++ other) = MatchLine.marker.isPrefixOf (front ++ rest) := by
  have long := reads.length_le
  rw [List.length_append, Shape.tokens, List.length_append, List.length_cons, List.length_cons,
    List.length_cons] at long
  rcases front with _ | ⟨first, _ | ⟨second, front⟩⟩
  · rw [List.length_nil] at long
    omega
  · rw [List.length_singleton] at long
    omega
  · rfl

end YaraReport.Header

namespace YaraReport.Reader

open Token (Reads)

/-- A header line is accepted where its header denotes a rule, which is then in progress. -/
theorem feed_of_reads {reader : Reader} {line : String} {shape : Header.Shape}
    {rest : List Char} (active : reader.progress ≠ .failed)
    (unmarked : MatchLine.isMarked line = false) (reads : Reads line.toList shape.tokens rest)
    (bracketed : shape.Bracketed) :
    ((reader.feed line).violation = none ↔ ∃ rule, shape.Makes rule) ∧
      ∀ rule, shape.Makes rule → (reader.feed line).reader =
        ⟨.inRule rule, reader.lineNumber + 1, reader.skipped + shape.skipped⟩ := by
  have accepted := Header.read_ok_iff (reader.lineNumber + 1) reads bracketed
  rw [feed_header active (isHeader_eq_true (Header.isBlankLine_of_reads reads) unmarked)]
  unfold feedHeader
  dsimp only
  cases outcome : (Header.read (reader.lineNumber + 1) line).outcome with
  | error violation =>
    have never : ∀ rule, ¬ shape.Makes rule := by
      intro rule makes
      rw [← accepted, outcome] at makes
      cases makes
    refine ⟨⟨fun none => (by cases none), ?_⟩, fun rule makes => absurd makes (never rule)⟩
    rintro ⟨rule, makes⟩
    exact absurd makes (never rule)
  | ok rule =>
    have makes := (accepted rule).mp outcome
    have count := Header.skippedCount_read _ reads bracketed outcome
    refine ⟨⟨fun _ => ⟨rule, makes⟩, fun _ => rfl⟩, fun other makesOther => ?_⟩
    have same := outcome.symm.trans ((accepted other).mpr makesOther)
    rw [Except.ok.inj same, count]

/-- A header line is accepted exactly when it begins with the tokens of a header that follows
the format. The rule in progress is then the one that the header denotes, and every piece of
its lists that is left out is counted. What follows the header is not read. -/
theorem accepts_header_iff (reader : Reader) (line : String)
    (active : reader.progress ≠ .failed) (visible : Text.isBlankLine line = false)
    (unmarked : MatchLine.isMarked line = false) :
    ((reader.feed line).violation = none ↔
        ∃ (shape : Header.Shape) (rest : List Char),
          Reads line.toList shape.tokens rest ∧ shape.WellFormed) ∧
      ∀ (shape : Header.Shape) (rest : List Char),
        Reads line.toList shape.tokens rest → shape.Bracketed →
          (shape.WellFormed → ∃ rule, shape.Makes rule ∧ (reader.feed line).reader =
            ⟨.inRule rule, reader.lineNumber + 1, reader.skipped + shape.skipped⟩) ∧
          ∀ front other, line.toList = front ++ rest →
            ((reader.feed (String.ofList (front ++ other))).violation = none ↔
              (reader.feed line).violation = none) ∧
            ((reader.feed line).violation = none →
              (reader.feed (String.ofList (front ++ other))).reader = (reader.feed line).reader) := by
  refine ⟨⟨fun accepted => ?_, ?_⟩, fun shape rest reads bracketed => ?_⟩
  · obtain ⟨rule, outcome, -⟩ :=
      feed_header_accepted active (isHeader_eq_true visible unmarked) accepted
    obtain ⟨shape, bracketed, rest, reads⟩ := Header.exists_shape _ outcome
    refine ⟨shape, rest, reads, (shape.wellFormed_iff bracketed).mpr ⟨rule, ?_⟩⟩
    exact (Header.read_ok_iff _ reads bracketed rule).mp outcome
  · rintro ⟨shape, rest, reads, wellFormed⟩
    have bracketed := wellFormed.toBracketed
    exact (feed_of_reads active unmarked reads bracketed).1.mpr
      ((shape.wellFormed_iff bracketed).mp wellFormed)
  · obtain ⟨accepted, progress⟩ := feed_of_reads active unmarked reads bracketed
    refine ⟨fun wellFormed => ?_, fun front other whole => ?_⟩
    · obtain ⟨rule, makes⟩ := (shape.wellFormed_iff bracketed).mp wellFormed
      exact ⟨rule, makes, progress rule makes⟩
    · rw [whole] at reads
      have changed : Reads (String.ofList (front ++ other)).toList shape.tokens other := by
        rw [String.toList_ofList]
        rw [shape.tokens_eq] at reads ⊢
        exact reads.swap_rest rfl other
      have changedUnmarked : MatchLine.isMarked (String.ofList (front ++ other)) = false := by
        rw [MatchLine.isMarked, String.toList_ofList, Header.isMarked_swap reads, ← whole]
        exact unmarked
      obtain ⟨changedAccepted, changedProgress⟩ :=
        feed_of_reads active changedUnmarked changed bracketed
      refine ⟨changedAccepted.trans accepted.symm, fun fine => ?_⟩
      obtain ⟨rule, makes⟩ := accepted.mp fine
      rw [changedProgress rule makes, progress rule makes]

/-- A header with an empty piece in either list, before a quote that is never closed. -/
theorem accepts_header_before_open_quote :
    ∃ rule, Header.Shape.Makes ⟨"H", [.identifier "a", .comma],
        [.comma, .identifier "n", .equals, .number "-1", .identifier "x"]⟩ rule ∧
      (start.feed "H [a,] [,n=-1 x] \"").reader = ⟨.inRule rule, 1, 1⟩ := by
  have format := (accepts_header_iff start "H [a,] [,n=-1 x] \"" (by decide) (by decide)
    (by decide)).2 ⟨"H", [.identifier "a", .comma],
      [.comma, .identifier "n", .equals, .number "-1", .identifier "x"]⟩ " \"".toList
  have reads : Reads "H [a,] [,n=-1 x] \"".toList
      [.identifier "H", .leftBracket, .identifier "a", .comma, .rightBracket, .leftBracket, .comma,
        .identifier "n", .equals, .number "-1", .identifier "x", .rightBracket] " \"".toList := by
    iterate 12 refine .next rfl (by decide) ?_
    exact .done _
  refine (format reads ⟨by decide, by decide⟩).1 ⟨⟨by decide, by decide⟩, fun piece member named => ?_⟩
  have last : piece = [.identifier "n", .equals, .number "-1", .identifier "x"] := by
    rcases List.mem_cons.mp member with rfl | later
    · cases named
    · exact List.mem_singleton.mp later
  exact ⟨⟨"n", .integer (Int64.ofInt (-1))⟩, .number "-1", [.identifier "x"], last,
    .integer rfl (by decide) (by decide)⟩

end YaraReport.Reader
