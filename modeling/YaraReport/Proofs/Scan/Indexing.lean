/-
This file proves that no line of scanner output can break a reader. The reader is run
again with its line as it is stored and with every group of tokens as a list that is
indexed: an index outside a group, a group without last token, a cut between the bytes of
a character, the negation of a word that has no negative, and a loop that would go on for
ever are breakdowns, which are `none`. Such a run never breaks down and does what the
reader does (`Reader.run_never_breaks_down`).

An entry of metadata is looked at by index. That the indices lie in its group is known
from elsewhere: a group ends with a separator, which is neither a name nor an equals
sign, so that another token follows each of these (`Header.gleanNamed?_toList`).
-/

import YaraReport.Proofs.Scan.History
import YaraReport.Proofs.Scan.Integers
import YaraReport.Proofs.Token.Pointer

namespace YaraReport

/-! ### Tokens in order -/

namespace Pointer

/-- Reads one token, which has to be of a known kind. -/
def expect? (pointer : Pointer) (kind : Token.Kind) :
    Option (Except Violation Lexeme × Pointer) :=
  pointer.next?.map fun
    | (.error error, after) => (.error (.lex error), after)
    | (.ok lexeme, after) =>
      if lexeme.kind = kind then (.ok lexeme, after)
      else if lexeme.kind = .empty then
        (.error (.unexpectedEnd (.token kind) lexeme.span), after)
      else (.error (.unexpectedToken (.token kind) lexeme.token lexeme.span), after)

/-- Reads tokens of the given kinds in order, up to the first that differs. -/
def sequence? (pointer : Pointer) :
    List Token.Kind → Option (Except Violation (List Lexeme) × Pointer)
  | [] => some (.ok [], pointer)
  | kind :: kinds =>
    (pointer.expect? kind).bind fun
      | (.error violation, after) => some (.error violation, after)
      | (.ok lexeme, after) =>
        (after.sequence? kinds).map fun
          | (.error violation, final) => (.error violation, final)
          | (.ok lexemes, final) => (.ok (lexeme :: lexemes), final)

/-- Reads tokens up to the first of a stopping kind, after some that are read already. -/
def group? (stops : List Token.Kind) :
    List Lexeme × Pointer → Option (Except LexError (List Lexeme) × Pointer) :=
  rounds? (fun state => state.2.left) fun (read, pointer) =>
    pointer.next?.map fun
      | (.error error, after) => .done (.error error, after)
      | (.ok lexeme, after) =>
        if lexeme.kind = .empty ∨ lexeme.kind ∈ stops then .done (.ok (read ++ [lexeme]), after)
        else .again (read ++ [lexeme], after)

end Pointer

namespace Lexer

variable {text : String} {line : Nat} {lexer : Lexer}

theorem In.expect? (stands : lexer.In line text.toList) (kind : Token.Kind) :
    (Pointer.of text lexer).expect? kind =
      some ((lexer.expect kind).1, Pointer.of text (lexer.expect kind).2) := by
  rw [Pointer.expect?, stands.next?, Option.map_some, Lexer.expect]
  obtain ⟨error | lexeme, after⟩ := lexer.next
  · rfl
  · dsimp only
    split
    · rfl
    · split <;> rfl

theorem In.sequence? (stands : lexer.In line text.toList) (kinds : List Token.Kind) :
    (Pointer.of text lexer).sequence? kinds =
      some ((lexer.expectAll kinds).1, Pointer.of text (lexer.expectAll kinds).2) := by
  induction kinds generalizing lexer with
  | nil => rfl
  | cons kind kinds inductionHypothesis =>
    rw [Pointer.sequence?, stands.expect?, Option.bind_some, Lexer.expectAll]
    cases read : lexer.expect kind with
    | mk outcome after =>
      cases outcome with
      | error violation => rfl
      | ok lexeme =>
        dsimp only
        rw [inductionHypothesis ((stands.expect kind).1 lexeme after read).2, Option.map_some]
        obtain ⟨violation | lexemes, final⟩ := after.expectAll kinds <;> rfl

/-- A token that does not stop a group is put into it. -/
theorem In.group?_of_next (stands : lexer.In line text.toList) {stops : List Token.Kind}
    (read : List Lexeme) {lexeme : Lexeme} {middle : Lexer}
    (found : lexer.next = (.ok lexeme, middle))
    (goesOn : ¬ (lexeme.kind = .empty ∨ lexeme.kind ∈ stops)) :
    Pointer.group? stops (read, Pointer.of text lexer) =
      Pointer.group? stops (read ++ [lexeme], Pointer.of text middle) := by
  have later := (stands.next.1 lexeme middle found).2
  refine rounds?_of_again ?_ (stands.closer later (next_shortens lexer lexeme middle found ?_))
  · dsimp only
    rw [stands.next?, found]
    exact congrArg some (if_neg goesOn)
  · exact fun empty => goesOn (.inl empty)

theorem In.group? (stands : lexer.In line text.toList) (stops : List Token.Kind)
    (read : List Lexeme) :
    Pointer.group? stops (read, Pointer.of text lexer) =
      some ((Lexer.nextUntil stops lexer).1.map fun group => read ++ group.toList,
        Pointer.of text (Lexer.nextUntil stops lexer).2) := by
  fun_induction Lexer.nextUntil stops lexer generalizing read with
  | case1 lexer error after found =>
    refine rounds?_of_done ?_
    dsimp only
    rw [stands.next?, found]
    rfl
  | case2 lexer lexeme after found ended =>
    refine rounds?_of_done ?_
    dsimp only
    rw [stands.next?, found]
    exact congrArg some (if_pos ended)
  | case3 lexer lexeme middle found ended _ error after readTail inductionHypothesis =>
    have later := (stands.next.1 lexeme middle found).2
    rw [stands.group?_of_next read found ended, inductionHypothesis later, readTail]
    rfl
  | case4 lexer lexeme middle found ended _ tail after readTail inductionHypothesis =>
    have later := (stands.next.1 lexeme middle found).2
    rw [stands.group?_of_next read found ended, inductionHypothesis later, readTail]
    show some (Except.ok (read ++ [lexeme] ++ tail.toList), _) = _
    rw [List.append_assoc]
    rfl

end Lexer

/-! ### Groups as lists -/

namespace Group

/-- What a group of a list is: it ends with a separator, and no other is in it. -/
structure Listed (group : Group) : Prop where
  stop : group.stop.kind ∈ [Token.Kind.comma, .rightBracket]
  body : ∀ lexeme ∈ group.body, lexeme.kind ∉ [Token.Kind.comma, .rightBracket]

theorem getElem?_toList {group : Group} {position : Nat} (inside : position ≤ group.body.length) :
    group.toList[position]? = some (Header.tokenAt group position) := by
  unfold toList Header.tokenAt
  rcases Nat.lt_or_eq_of_le inside with before | rfl
  · rw [List.getElem?_append_left before, List.getElem?_eq_getElem before]
    rfl
  · rw [List.getElem?_concat_length, List.getElem?_eq_none (Nat.le_refl _)]
    rfl

theorem first_eq (group : Group) : group.first = Header.tokenAt group 0 := by
  rw [first, Header.tokenAt, List.head?_eq_getElem?]

theorem toList_zero (group : Group) : group.toList[0]? = some group.first := by
  rw [first_eq]
  exact getElem?_toList (Nat.zero_le _)

theorem length_toList (group : Group) : group.toList.length = group.body.length + 1 := by
  rw [toList, List.length_append]
  rfl

/-- A group that begins with a closing bracket is nothing but that bracket. -/
theorem Listed.isClosing_iff {group : Group} (listed : group.Listed) :
    group.first.kind = .rightBracket ↔ group.isClosing = true := by
  obtain ⟨body, stop⟩ := group
  cases body with
  | nil =>
    show stop.kind = .rightBracket ↔ (true && decide (stop.kind = .rightBracket)) = true
    rw [Bool.true_and, decide_eq_true_iff]
  | cons lexeme body =>
    have other : lexeme.kind ≠ .rightBracket := fun bracket =>
      listed.body lexeme List.mem_cons_self (by rw [bracket]; decide)
    exact iff_of_false other Bool.false_ne_true

end Group

namespace Lexer

theorem listed_of_nextUntil {lexer after : Lexer} {group : Group}
    (read : nextUntil [.comma, .rightBracket] lexer = (.ok group, after))
    (visible : group.stop.kind ≠ .empty) : group.Listed := by
  obtain ⟨-, inside, stopping⟩ := reads_of_nextUntil read visible
  exact ⟨stopping, fun lexeme member => inside _ (List.mem_map_of_mem member)⟩

end Lexer

namespace Header

/-! ### Lists -/

/-- Whether a group ends its list. -/
def endsList? (group : List Lexeme) : Option (Except Violation Bool) :=
  match group.getLast? with
  | none => none
  | some last =>
    if last.kind = .rightBracket then some (.ok true)
    else if last.kind = .comma then some (.ok false)
    else some (.error (.unexpectedEnd .separator last.span))

/-- What is made of an entry of a list: remarks, and an item or none, or a violation. -/
abbrev Gleaned (Item : Type) := List Note × Except Violation (Option Item)

/-- What the entries of a list that are read so far come to. -/
structure Gathered (Item : Type) where
  notes : List Note
  items : List Item

variable {Item : Type}

/-- Goes on with a group of a list, given what each entry is taken for. -/
def listRound? (glean? : List Lexeme → Lexeme → Option (Gleaned Item)) (gathered : Gathered Item)
    (after : Pointer) (group : List Lexeme) :
    Option (Round (Gathered Item × Pointer)
      (List Note × Except Violation (List Item × Pointer))) :=
  (endsList? group).bind fun
    | .error violation => some (.done (gathered.notes, .error violation))
    | .ok ends =>
      group[0]?.bind fun first =>
        if first.kind = .rightBracket then
          some (.done (gathered.notes, .ok (gathered.items, after)))
        else
          (glean? group first).map fun
            | (notes, .error violation) => .done (gathered.notes ++ notes, .error violation)
            | (notes, .ok item?) =>
              if ends then
                .done (gathered.notes ++ notes, .ok (gathered.items ++ item?.toList, after))
              else .again (⟨gathered.notes ++ notes, gathered.items ++ item?.toList⟩, after)

/-- Reads a list after its opening bracket. -/
def list? (glean? : List Lexeme → Lexeme → Option (Gleaned Item)) :
    Gathered Item × Pointer → Option (List Note × Except Violation (List Item × Pointer)) :=
  rounds? (fun state => state.2.left) fun (gathered, pointer) =>
    (Pointer.group? [.comma, .rightBracket] ([], pointer)).bind fun
      | (.error error, _) => some (.done (gathered.notes, .error (.lex error)))
      | (.ok group, after) => listRound? glean? gathered after group

/-- What the groups of a list come to, up to the first that breaks the format. -/
def gather (glean : Group → Gleaned Item) : List Group → List Note × Except Violation (List Item)
  | [] => ([], .ok [])
  | group :: groups =>
    if group.isClosing then gather glean groups
    else
      match glean group with
      | (notes, .error violation) => (notes, .error violation)
      | (notes, .ok item?) =>
        (notes ++ (gather glean groups).1,
          (gather glean groups).2.map fun items => item?.toList ++ items)

/-- What a list comes to, and the lexer after it. -/
def outcome (glean : Group → Gleaned Item) (list : Entries) :
    Except Violation (List Item × Lexer) :=
  match (gather glean list.groups).2, list.failure with
  | .error violation, _ => .error violation
  | .ok _, some violation => .error violation
  | .ok items, none => .ok (items, list.after)

variable {glean? : List Lexeme → Lexeme → Option (Gleaned Item)} {glean : Group → Gleaned Item}
  {text : String} {line : Nat} {lexer : Lexer}

theorem endsList?_toList (group : Group) :
    endsList? group.toList =
      if group.stop.kind = .rightBracket then some (.ok true)
      else if group.stop.kind = .comma then some (.ok false)
      else some (.error (.unexpectedEnd .separator group.stop.span)) := by
  rw [endsList?, Group.toList, List.getLast?_concat]

theorem outcome_cons {group : Group} {notes : List Note} {item? : Option Item} (list : Entries)
    (entry : group.isClosing = false) (gleaned : glean group = (notes, .ok item?)) :
    outcome glean { list with groups := group :: list.groups } =
      (outcome glean list).map fun read => (item?.toList ++ read.1, read.2) := by
  rw [outcome, outcome, gather, if_neg (Bool.eq_false_iff.mp entry), gleaned]
  dsimp only
  obtain ⟨groups, failure, after⟩ := list
  cases (gather glean groups).2 <;> cases failure <;> rfl

/-- What a group of a list makes of the list, if it is one of its entries. -/
def glanced (gathered : Gathered Item) (after : Pointer) (ends : Bool) :
    Gleaned Item → Round (Gathered Item × Pointer)
      (List Note × Except Violation (List Item × Pointer))
  | (notes, .error violation) => .done (gathered.notes ++ notes, .error violation)
  | (notes, .ok item?) =>
    if ends then .done (gathered.notes ++ notes, .ok (gathered.items ++ item?.toList, after))
    else .again (⟨gathered.notes ++ notes, gathered.items ++ item?.toList⟩, after)

/-- No index into a group of a list lies outside it. -/
theorem listRound?_of_listed
    (agrees : ∀ group, group.Listed → group.isClosing = false →
      glean? group.toList group.first = some (glean group))
    {group : Group} (listed : group.Listed) (gathered : Gathered Item) (after : Pointer) :
    listRound? glean? gathered after group.toList =
      some (if group.isClosing then .done (gathered.notes, .ok (gathered.items, after))
        else glanced gathered after (group.stop.kind = .rightBracket) (glean group)) := by
  have ends : endsList? group.toList = some (.ok (decide (group.stop.kind = .rightBracket))) := by
    rw [endsList?_toList]
    split
    · rename_i bracket
      rw [decide_eq_true bracket]
    · rename_i other
      have comma : group.stop.kind = .comma := by
        have stop := listed.stop
        rw [List.mem_cons, List.mem_singleton] at stop
        exact stop.resolve_right other
      rw [if_pos comma, decide_eq_false other]
  rw [listRound?, ends, Option.bind_some]
  dsimp only
  rw [group.toList_zero, Option.bind_some]
  cases closing : group.isClosing with
  | true => rw [if_pos (listed.isClosing_iff.mpr closing)]; rfl
  | false =>
    have other : group.first.kind ≠ .rightBracket := fun bracket =>
      Bool.false_ne_true (closing.symm.trans (listed.isClosing_iff.mp bracket))
    rw [if_neg other, agrees group listed closing]
    rfl

/-- A list ends with a group after which there is nothing left to do. -/
theorem list?_of_done (stands : lexer.In line text.toList) {gathered : Gathered Item}
    {group : Group} {after : Lexer}
    (found : Lexer.nextUntil [.comma, .rightBracket] lexer = (.ok group, after))
    {result : List Note × Except Violation (List Item × Pointer)}
    (done : listRound? glean? gathered (Pointer.of text after) group.toList =
      some (.done result)) :
    list? glean? (gathered, Pointer.of text lexer) = some result := by
  refine rounds?_of_done ?_
  dsimp only
  rw [stands.group?, found]
  exact done

/-- A list goes on after a group that takes something off the line. -/
theorem list?_of_again (stands : lexer.In line text.toList) {gathered more : Gathered Item}
    {group : Group} {after : Lexer}
    (found : Lexer.nextUntil [.comma, .rightBracket] lexer = (.ok group, after))
    (shortens : after.rest.length < lexer.rest.length)
    (again : listRound? glean? gathered (Pointer.of text after) group.toList =
      some (.again (more, Pointer.of text after))) :
    list? glean? (gathered, Pointer.of text lexer) =
      list? glean? (more, Pointer.of text after) := by
  have later := ((stands.nextUntil _).1 group after found).2
  refine rounds?_of_again ?_ (stands.closer later shortens)
  dsimp only
  rw [stands.group?, found]
  exact again

/-- A list that is read group by group comes to what its groups come to. -/
theorem list?_of_agrees
    (agrees : ∀ group, group.Listed → group.isClosing = false →
      glean? group.toList group.first = some (glean group))
    (stands : lexer.In line text.toList) (gathered : Gathered Item) :
    list? glean? (gathered, Pointer.of text lexer) =
      some (gathered.notes ++ (gather glean (entries lexer).groups).1,
        (outcome glean (entries lexer)).map fun read =>
          (gathered.items ++ read.1, Pointer.of text read.2)) := by
  fun_induction entries lexer generalizing gathered with
  | case1 lexer error after found =>
    refine rounds?_of_done ?_
    dsimp only
    rw [stands.group?, found]
    show some _ = some (Round.done (gathered.notes ++ [], _))
    rw [List.append_nil]
    rfl
  | case2 lexer group after found bracket =>
    have listed := Lexer.listed_of_nextUntil found (by rw [bracket]; decide)
    refine list?_of_done stands found ?_
    rw [listRound?_of_listed agrees listed, decide_eq_true bracket, outcome, gather]
    cases closing : group.isClosing with
    | true =>
      rw [if_pos rfl, if_pos rfl]
      dsimp only [gather, Except.map]
      rw [List.append_nil, List.append_nil]
    | false =>
      rw [if_neg Bool.false_ne_true, if_neg Bool.false_ne_true]
      obtain ⟨notes, violation | item?⟩ := glean group
      · rfl
      · dsimp only [glanced, gather, Except.map]
        rw [if_pos rfl, List.append_nil, List.append_nil]
  | case3 lexer group after found other comma shortens inductionHypothesis =>
    have listed := Lexer.listed_of_nextUntil found (by rw [comma]; decide)
    have entry : group.isClosing = false := by
      rw [Group.isClosing, decide_eq_false other, Bool.and_false]
    have round := listRound?_of_listed agrees listed gathered (Pointer.of text after)
    rw [entry, if_neg Bool.false_ne_true, decide_eq_false other] at round
    rcases gleaned : glean group with ⟨notes, violation | item?⟩
    · rw [gleaned] at round
      rw [list?_of_done stands found round, outcome, gather,
        if_neg (Bool.eq_false_iff.mp entry), gleaned]
      rfl
    · rw [gleaned] at round
      have later := ((stands.nextUntil _).1 group after found).2
      rw [list?_of_again stands found shortens round, inductionHypothesis later,
        outcome_cons (entries after) entry gleaned, gather, if_neg (Bool.eq_false_iff.mp entry),
        gleaned]
      dsimp only
      rw [List.append_assoc]
      cases outcome glean (entries after) with
      | error violation => rfl
      | ok read =>
        dsimp only [Except.map]
        rw [List.append_assoc]
  | case4 lexer group after found other another =>
    refine list?_of_done stands found ?_
    rw [listRound?, endsList?_toList, if_neg other, if_neg another, Option.bind_some]
    show some _ = some (Round.done (gathered.notes ++ [], _))
    rw [List.append_nil]
    rfl

/-! ### Entries -/

/-- What is made of an entry that is left out. -/
def skipped (list : EntryList) (first : Lexeme) : Gleaned Item :=
  ([.skippedEntry list first], .ok none)

/-- What an entry of a tag list is taken for, of which only the first token counts. -/
def gleanTag (first : Lexeme) : Gleaned String :=
  match first.token with
  | .identifier text => ([], .ok (some text))
  | .number text => ([], .ok (some text))
  | .string raw => ([], .ok (some raw))
  | _ => skipped .tags first

/-- The negative of a wide word, which breaks down where there is none. -/
def negate? (wide : BitVec 128) : Option (BitVec 128) :=
  if wide.negOverflow then none else some (-wide)

/-- The machine integer that a numeral denotes, if it fits one. -/
def decodeInteger? (text : String) : Option (Option Int64) :=
  match magnitude? (Text.splitSign text.toList).2 with
  | some magnitude =>
    if (Text.splitSign text.toList).1 then (negate? magnitude).map narrow?
    else some (narrow? magnitude)
  | none => some none

def decodeValue? (lexeme : Lexeme) : Option (Except Violation MetaValue) :=
  match lexeme.token with
  | .number text =>
    (decodeInteger? text).map fun
      | some value => .ok (.integer value)
      | none => .error (.numericDecode text lexeme.span)
  | _ => some (metadataValue lexeme)

/-- The remark on the tokens from the fourth to the last but one. -/
def ignored? (identifier : String) (group : List Lexeme) : Option (List Note) :=
  if 4 < group.length then
    if 3 ≤ group.length - 2 then
      group[3]?.bind fun first =>
        group[group.length - 2]?.map fun last =>
          [.ignoredTokens identifier (first.span.merge last.span)]
    else none
  else some []

/-- The metadata entry of a group that begins with a name. -/
def gleanNamed? (group : List Lexeme) : Option (Gleaned Meta) :=
  group[0]?.bind fun name =>
    group[1]?.bind fun equals =>
      if equals.kind = .equals then
        group[2]?.bind fun value =>
          (decodeValue? value).bind fun
            | .error violation => some ([], .error violation)
            | .ok value =>
              (ignored? name.token.text group).map fun notes =>
                (notes, .ok (some ⟨name.token.text, value⟩))
      else some ([], .error (unexpected (.token .equals) equals))

def gleanMetadata? (group : List Lexeme) (first : Lexeme) : Option (Gleaned Meta) :=
  if first.kind = .identifier then gleanNamed? group else some (skipped .metadata first)

/-- What an entry of a metadata list is taken for. -/
def gleanMetadata (group : Group) : Gleaned Meta :=
  match group.first.token with
  | .identifier identifier =>
    match entry identifier group with
    | .error violation => ([], .error violation)
    | .ok value => (ignoredNotes identifier group, .ok (some value))
  | _ => skipped .metadata group.first

theorem decodeInteger?_eq (text : String) : decodeInteger? text = some (integer? text) := by
  unfold decodeInteger? integer?
  cases read : magnitude? (Text.splitSign text.toList).2 with
  | none => rfl
  | some magnitude =>
    dsimp only
    split
    · rw [negate?, not_negOverflow_magnitude read]
      rfl
    · rfl

theorem decodeValue?_eq (lexeme : Lexeme) : decodeValue? lexeme = some (metadataValue lexeme) := by
  unfold decodeValue?
  split
  · rename_i text token
    rw [decodeInteger?_eq, metadataValue, token]
    dsimp only
    cases integer? text <;> rfl
  · rfl

/-- The tokens that are passed over lie in their group, the first before the last. -/
theorem ignored?_toList (identifier : String) (group : Group) :
    ignored? identifier group.toList = some (ignoredNotes identifier group) := by
  rw [ignored?, ignoredNotes, Group.length_toList]
  cases more : group.body.drop 3 with
  | nil =>
    have short := List.drop_eq_nil_iff.mp more
    rw [if_neg (by omega)]
  | cons first rest =>
    have long : 3 < group.body.length := by
      have count := congrArg List.length more
      rw [List.length_drop, List.length_cons] at count
      omega
    have front : tokenAt group 3 = first := by
      rw [tokenAt, ← Nat.add_zero 3, ← List.getElem?_drop, more]
      rfl
    have back : tokenAt group (group.body.length - 1) = rest.getLast?.getD first := by
      rw [tokenAt, ← List.getLast?_eq_getElem?, ← List.take_append_drop 3 group.body, more,
        List.getLast?_append, List.getLast?_cons]
      rfl
    have position : group.body.length + 1 - 2 = group.body.length - 1 := by omega
    rw [if_pos (by omega), if_pos (by omega), Group.getElem?_toList (by omega), Option.bind_some,
      position, Group.getElem?_toList (by omega), Option.map_some, front, back]

/-- Another token follows each token of a group that is no separator. -/
theorem lt_length_of_not_separator {group : Group} (listed : group.Listed) {position : Nat}
    (inside : position ≤ group.body.length)
    (other : (tokenAt group position).kind ∉ [Token.Kind.comma, .rightBracket]) :
    position < group.body.length := by
  refine Nat.lt_of_le_of_ne inside ?_
  rintro rfl
  rw [tokenAt, List.getElem?_eq_none (Nat.le_refl _), Option.getD_none] at other
  exact other listed.stop

/-- An entry that begins with a name has another token, and one that goes on with an equals sign
has a third. -/
theorem gleanNamed?_toList {group : Group} (listed : group.Listed) {name : String}
    (named : group.first.token = .identifier name) :
    gleanNamed? group.toList =
      some (match entry name group with
        | .error violation => ([], .error violation)
        | .ok value => (ignoredNotes name group, .ok (some value))) := by
  have second : 0 < group.body.length := by
    refine lt_length_of_not_separator listed (Nat.zero_le _) ?_
    rw [← Group.first_eq, Lexeme.kind, named]
    show Token.Kind.identifier ∉ _
    decide
  have text : group.first.token.text = name := congrArg Token.text named
  rw [gleanNamed?, group.toList_zero, Option.bind_some, Group.getElem?_toList second,
    Option.bind_some, text]
  unfold Header.entry
  by_cases equals : (tokenAt group 1).kind = .equals
  · have third : 1 < group.body.length := by
      refine lt_length_of_not_separator listed second ?_
      rw [equals]
      decide
    rw [if_pos equals, if_pos equals, Group.getElem?_toList third, Option.bind_some,
      decodeValue?_eq, Option.bind_some]
    cases metadataValue (tokenAt group 2) with
    | error violation => rfl
    | ok value =>
      dsimp only [Except.map]
      rw [ignored?_toList, Option.map_some]
  · rw [if_neg equals, if_neg equals]

/-- A name that no separator follows would be a breakdown. -/
example : gleanNamed? [⟨.identifier "k", ⟨1, 8, 7, 8⟩⟩] = none := rfl

theorem gleanMetadata?_toList {group : Group} (listed : group.Listed) :
    gleanMetadata? group.toList group.first = some (gleanMetadata group) := by
  unfold gleanMetadata? gleanMetadata
  cases token : group.first.token with
  | identifier name =>
    have named : group.first.kind = .identifier := congrArg Token.kind token
    rw [if_pos named]
    exact gleanNamed?_toList listed token
  | _ =>
    refine if_neg fun named => ?_
    rw [Lexeme.kind, token] at named
    cases named

/-- A group that closes its list begins with the bracket. -/
theorem token_of_isClosing {group : Group} (closing : group.isClosing = true) :
    group.first.token = .rightBracket := by
  obtain ⟨body, stop⟩ := group
  obtain ⟨nothing, bracket⟩ := Bool.and_eq_true_iff.mp closing
  obtain rfl := List.isEmpty_iff.mp nothing
  have bracket : stop.token.kind = .rightBracket := of_decide_eq_true bracket
  show stop.token = .rightBracket
  cases token : stop.token with
  | rightBracket => rfl
  | _ => rw [token] at bracket; cases bracket

theorem gleanTag_first (group : Group) :
    gleanTag group.first =
      match tag? group with
      | some tag => ([], .ok (some tag))
      | none => skipped .tags group.first := by
  unfold gleanTag tag?
  cases group.first.token <;> rfl

theorem tagNotes_cons (group : Group) (groups : List Group) :
    tagNotes (group :: groups) =
      if group.isClosing || (tag? group).isSome then tagNotes groups
      else .skippedEntry .tags group.first :: tagNotes groups := by
  split
  · rename_i kept
    exact List.filterMap_cons_none (if_pos kept)
  · rename_i left
    exact List.filterMap_cons_some (if_neg left)

theorem gather_gleanTag (groups : List Group) :
    gather (fun group => gleanTag group.first) groups = (tagNotes groups, .ok (tags groups)) := by
  induction groups with
  | nil => rfl
  | cons group groups inductionHypothesis =>
    rw [gather, inductionHypothesis, gleanTag_first, tagNotes_cons]
    cases found : tag? group with
    | none =>
      rw [show tags (group :: groups) = tags groups from List.filterMap_cons_none found,
        Option.isSome_none, Bool.or_false]
      split <;> rfl
    | some tag =>
      have entry : group.isClosing = false := by
        by_contra closing
        rw [tag?, token_of_isClosing (Bool.of_not_eq_false closing)] at found
        cases found
      rw [show tags (group :: groups) = tag :: tags groups from List.filterMap_cons_some found,
        Option.isSome_some, Bool.or_true, entry]
      rfl

theorem gather_gleanMetadata (groups : List Group) :
    gather gleanMetadata groups = ((metadata groups).notes, (metadata groups).outcome) := by
  induction groups with
  | nil => rfl
  | cons group groups inductionHypothesis =>
    unfold gather metadata
    rw [inductionHypothesis]
    cases closing : group.isClosing with
    | true => rfl
    | false =>
      rw [if_neg Bool.false_ne_true, if_neg Bool.false_ne_true, gleanMetadata]
      cases token : group.first.token with
      | identifier name =>
        dsimp only
        cases entry name group with
        | error violation => rfl
        | ok value => rfl
      | _ =>
        dsimp only [skipped]
        cases (metadata groups).outcome <;> rfl

/-! ### Whole headers -/

/-- Reads the name of a rule and what opens its tag list. -/
def opening? (pointer : Pointer) : Option (Except Violation (String × Pointer)) :=
  (pointer.expect? .identifier).bind fun
    | (.error violation, _) => some (.error violation)
    | (.ok name, after) =>
      (after.expect? .leftBracket).map fun
        | (.error violation, _) => .error violation
        | (.ok _, after) => .ok (name.token.text, after)

/-- Reads the metadata list of a header whose tag list is read. -/
def closing? (name : String) (tags : List String) (pointer : Pointer) : Option (Reading Rule) :=
  (pointer.expect? .leftBracket).bind fun
    | (.error violation, _) => some ⟨[], .error violation⟩
    | (.ok _, after) =>
      (list? gleanMetadata? (⟨[], []⟩, after)).map fun
        | (notes, .error violation) => ⟨notes, .error violation⟩
        | (notes, .ok (values, _)) =>
          ⟨notes ++ [.header name tags.length values.length], .ok ⟨name, tags, values, []⟩⟩

def read? (line : Nat) (text : String) : Option (Reading Rule) :=
  (opening? (.start line text)).bind fun
    | .error violation => some ⟨[], .error violation⟩
    | .ok (name, after) =>
      (list? (fun _ first => some (gleanTag first)) (⟨[], []⟩, after)).bind fun
        | (notes, .error violation) => some ⟨notes, .error violation⟩
        | (notes, .ok (tags, after)) =>
          (closing? name tags after).map fun reading =>
            ⟨notes ++ reading.notes, reading.outcome⟩

theorem opening?_eq (stands : lexer.In line text.toList) :
    opening? (Pointer.of text lexer) =
      some ((opening lexer).map fun opened => (opened.1, Pointer.of text opened.2)) := by
  rw [opening?, stands.expect?, Option.bind_some, opening]
  cases read : lexer.expect .identifier with
  | mk outcome after =>
    cases outcome with
    | error violation => rfl
    | ok name =>
      have later := ((stands.expect _).1 name after read).2
      dsimp only
      rw [later.expect?, Option.map_some]
      obtain ⟨violation | bracket, final⟩ := after.expect .leftBracket <;> rfl

theorem tagList_eq (stands : lexer.In line text.toList) :
    list? (fun _ first => some (gleanTag first)) (⟨[], []⟩, Pointer.of text lexer) =
      some (tagNotes (entries lexer).groups,
        match (entries lexer).failure with
        | some violation => .error violation
        | none =>
          .ok (tags (entries lexer).groups, Pointer.of text (entries lexer).after)) := by
  have agrees (group : Group) (_ : group.Listed) (_ : group.isClosing = false) :
      some (gleanTag group.first) = some ((fun group => gleanTag group.first) group) := rfl
  rw [list?_of_agrees agrees stands, outcome, gather_gleanTag]
  cases (entries lexer).failure <;> rfl

theorem metadataList_eq (stands : lexer.In line text.toList) :
    list? gleanMetadata? (⟨[], []⟩, Pointer.of text lexer) =
      some ((metadata (entries lexer).groups).notes,
        (outcome gleanMetadata (entries lexer)).map fun read =>
          (read.1, Pointer.of text read.2)) := by
  rw [list?_of_agrees (fun _ listed _ => gleanMetadata?_toList listed) stands,
    gather_gleanMetadata]
  rfl

theorem closing?_eq (stands : lexer.In line text.toList) (name : String) {list : Entries}
    (closed : list.failure = none) (follows : list.after = lexer) :
    closing? name (tags list.groups) (Pointer.of text lexer) = some (closing name list) := by
  rw [closing?, stands.expect?, Option.bind_some, closing, closed, follows]
  cases read : lexer.expect .leftBracket with
  | mk found after =>
    cases found with
    | error violation => rfl
    | ok bracket =>
      have later := ((stands.expect _).1 bracket after read).2
      dsimp only
      rw [metadataList_eq later, Option.map_some, outcome, gather_gleanMetadata, assemble]
      cases (metadata (entries after).groups).outcome with
      | error violation => rfl
      | ok values => cases (entries after).failure <;> rfl

/-- A header that is read by index is read as ever. -/
theorem read?_eq (line : Nat) (text : String) : read? line text = some (read line text) := by
  have stands := Lexer.ofLine_in line text
  have opens := opening?_eq stands
  rw [read?, show Pointer.start line text = Pointer.of text (Lexer.ofLine text line) from rfl,
    opens, Option.bind_some, read]
  cases opened : opening (Lexer.ofLine text line) with
  | error violation => rfl
  | ok parts =>
    obtain ⟨name, after⟩ := parts
    have later := (opening_in stands).1 name after opened
    dsimp only [Except.map]
    rw [tagList_eq later, Option.bind_some]
    cases failure : (entries after).failure with
    | some violation =>
      dsimp only
      rw [closing, failure]
      exact congrArg (fun notes => some (Reading.mk notes _)) (List.append_nil _).symm
    | none =>
      dsimp only
      rw [closing?_eq ((entries_in later).2.2 failure) name failure rfl, Option.map_some]

end Header

namespace MatchLine

/-- Reads a match line as the identifier of a string and a match of it. -/
def read? (line : Nat) (text : String) : Option (Except Violation (String × Match)) :=
  ((Pointer.start line text).sequence? shape).bind fun
    | (.error violation, _) => some (.error violation)
    | (.ok group, after) =>
      group[0]?.bind fun offset =>
        match decodeOffset offset with
        | .error violation => some (.error violation)
        | .ok value =>
          group[2]?.bind fun identifier =>
            after.takeRest?.map fun data =>
              .ok (identifier.token.text, ⟨value, data.1.token.text⟩)

/-- A sequence is as long as its shape, so the tokens of a match line are there. -/
theorem read?_eq (line : Nat) (text : String) : read? line text = some (read line text) := by
  have stands := Lexer.ofLine_in line text
  rw [read?, show Pointer.start line text = Pointer.of text (Lexer.ofLine text line) from rfl,
    stands.sequence?, Option.bind_some, read]
  cases read : (Lexer.ofLine text line).expectAll shape with
  | mk outcome after =>
    cases outcome with
    | error violation => rfl
    | ok lexemes =>
      have later := ((stands.expectAll _).1 lexemes after read).2
      have long : lexemes.length = 4 := by
        have kinds := congrArg List.length (Lexer.reads_of_expectAll read (by decide)).2
        rwa [List.length_map] at kinds
      obtain ⟨offset, colon, identifier, second, rfl⟩ := List.length_eq_four.mp long
      show (match decodeOffset offset with
        | .error violation => some (Except.error violation)
        | .ok value => _) = _
      dsimp only
      cases decodeOffset offset with
      | error violation => rfl
      | ok value =>
        show ((Pointer.of text after).takeRest?).map _ = _
        rw [later.takeRest?]
        rfl

end MatchLine

namespace Reader

/-! ### Runs -/

/-- Reads a match line, whose number is already counted. -/
def feedMatch? (reader : Reader) (line : String) : Option Step :=
  match reader.progress with
  | .inRule rule =>
    (MatchLine.read? reader.lineNumber line).map fun
      | .ok (identifier, occurrence) =>
        ⟨{ reader with progress := .inRule (rule.pushMatch identifier occurrence) }, [], [], none⟩
      | .error violation => ⟨{ reader with progress := .failed }, [], [], some violation⟩
  | .idle | .failed =>
    some ⟨{ reader with progress := .failed }, [], [], some (.orphanMatch reader.lineNumber)⟩

/-- Reads a header line, whose number is already counted. -/
def feedHeader? (reader : Reader) (line : String) : Option Step :=
  (Header.read? reader.lineNumber line).map fun reading =>
    match reading.outcome with
    | .ok rule =>
      ⟨⟨.inRule rule, reader.lineNumber, reader.skipped + Note.skippedCount reading.notes⟩,
        reader.progress.pending, reading.notes, none⟩
    | .error violation =>
      ⟨⟨.failed, reader.lineNumber, reader.skipped + Note.skippedCount reading.notes⟩,
        reader.progress.pending, reading.notes, some violation⟩

def feed? (reader : Reader) (line : String) : Option Step :=
  if reader.progress = .failed then some ⟨reader, [], [], some .aborted⟩
  else if Text.isBlankLine line then
    some ⟨{ reader with lineNumber := reader.lineNumber + 1 }, [], [], none⟩
  else if MatchLine.isMarked line then
    feedMatch? { reader with lineNumber := reader.lineNumber + 1 } line
  else feedHeader? { reader with lineNumber := reader.lineNumber + 1 } line

/-- Reads lines one after the other, also after a violation, and ends the run. -/
def run? (reader : Reader) : List String → Option (List Step × Except Violation (List Rule))
  | [] => some ([], reader.finish)
  | line :: lines =>
    (reader.feed? line).bind fun step =>
      (step.reader.run? lines).map fun later => (step :: later.1, later.2)

theorem feedMatch?_eq (reader : Reader) (line : String) :
    reader.feedMatch? line = some (reader.feedMatch line) := by
  unfold feedMatch? feedMatch
  cases reader.progress with
  | inRule rule =>
    dsimp only
    rw [MatchLine.read?_eq]
    obtain violation | ⟨identifier, occurrence⟩ := MatchLine.read reader.lineNumber line <;> rfl
  | idle => rfl
  | failed => rfl

theorem feedHeader?_eq (reader : Reader) (line : String) :
    reader.feedHeader? line = some (reader.feedHeader line) := by
  unfold feedHeader? feedHeader
  rw [Header.read?_eq]
  rfl

theorem feed?_eq (reader : Reader) (line : String) :
    reader.feed? line = some (reader.feed line) := by
  unfold feed? feed
  split
  · rfl
  · rw [feedMatch?_eq, feedHeader?_eq]
    dsimp only
    split
    · rfl
    · split <;> rfl

theorem run?_eq (reader : Reader) (lines : List String) :
    reader.run? lines = some (reader.steps lines, (reader.after lines).finish) := by
  induction lines generalizing reader with
  | nil => rfl
  | cons line lines inductionHypothesis =>
    rw [run?, feed?_eq, Option.bind_some, inductionHypothesis, Option.map_some]
    rfl

/-- No line breaks a reader down, whatever it has read before, and no lines do before it ends its
run. All indices lie in their groups, all cuts between characters, and all loops come to an end. -/
theorem run_never_breaks_down :
    (∀ (reader : Reader) (line : String), reader.feed? line = some (reader.feed line)) ∧
      ∀ (reader : Reader) (lines : List String),
        reader.run? lines = some (reader.steps lines, (reader.after lines).finish) :=
  ⟨feed?_eq, run?_eq⟩

end Reader

end YaraReport
