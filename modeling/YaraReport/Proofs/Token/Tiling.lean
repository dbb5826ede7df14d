/-
This file proves that the tokens of a line tile it. Whatever is asked of a lexer,
and in whatever order, each answer covers the text that stands next, and between
two answers nothing is left out but blanks, or the one space before the rest of
a line. What is covered is said in byte offsets of the text itself, so that the
count of bytes and the count of columns are both tied to it.

The invariant is `Lexer.In`: the lexer counts what is before it and holds the
rest. One lemma, `Lexer.In.takes`, turns it into what is said of an answer.
-/

import Mathlib.Data.String.Basic
import YaraReport.Proofs.Scan.Placement

namespace YaraReport

/-! ### Pieces of a text -/

/-- The part of a text between two byte offsets. -/
def Text.between (text : String) (start stop : Nat) : String :=
  String.Pos.Raw.extract text ⟨start⟩ ⟨stop⟩

/-- Whether a byte offset of a text stands between two characters, or at one of its ends. -/
def Text.IsBoundary (text : String) (offset : Nat) : Prop :=
  String.Pos.Raw.IsValid text ⟨offset⟩

theorem Lexer.byteLength_eq_utf8Len (text : List Char) : byteLength text = String.utf8Len text := by
  induction text with
  | nil => rfl
  | cons character rest inductionHypothesis =>
    rw [String.utf8Len_cons, ← inductionHypothesis, Nat.add_comm]
    rfl

theorem Lexer.byteLength_toList (text : String) : byteLength text.toList = text.utf8ByteSize := by
  rw [byteLength_eq_utf8Len, String.utf8Len_toList]

namespace Text

open Lexer (byteLength)

variable {text : String} {before part after : List Char}

theorem between_eq (whole : text.toList = before ++ (part ++ after)) :
    between text (byteLength before) (byteLength before + byteLength part) =
      String.ofList part := by
  rw [← List.append_assoc] at whole
  rw [between, Lexer.byteLength_eq_utf8Len, Lexer.byteLength_eq_utf8Len,
    ← String.ofList_toList (s := text), whole, String.extract_of_valid]

theorem isBoundary_of_append (whole : text.toList = before ++ after) :
    IsBoundary text (byteLength before) := by
  refine String.Pos.Raw.isValid_iff_exists_append.mpr
    ⟨String.ofList before, String.ofList after, ?_, ?_⟩
  · rw [← String.ofList_append, ← whole, String.ofList_toList]
  · rw [String.rawEndPos_ofList, Lexer.byteLength_eq_utf8Len]

end Text

/-- A span lies in a text that is a line of the given number: its ends stand between characters,
and its column counts the characters before it. -/
structure Span.Fits (text : String) (line : Nat) (span : Span) : Prop where
  line : span.line = line
  ordered : span.start ≤ span.stop
  inside : span.stop ≤ text.utf8ByteSize
  starts : Text.IsBoundary text span.start
  stops : Text.IsBoundary text span.stop
  column : span.column = 1 + (Text.between text 0 span.start).length

namespace Span.Covers

open Lexer (byteLength)

variable {text : String} {line : Nat} {span : Span} {part : List Char}

/-- A span that covers a part of a text lies in it. -/
theorem fits (covers : span.Covers line text.toList part) : span.Fits text line := by
  obtain ⟨before, after, whole, rfl⟩ := covers
  have beforeRest : text.toList = (before ++ part) ++ after := by rw [whole, List.append_assoc]
  have stop : byteLength (before ++ part) = byteLength before + byteLength part :=
    Lexer.byteLength_append before part
  have total : text.utf8ByteSize = byteLength (before ++ part) + byteLength after := by
    rw [← Lexer.byteLength_append, ← beforeRest, Lexer.byteLength_toList]
  refine ⟨rfl, Nat.le_add_right _ _, ?_, Text.isBoundary_of_append whole, ?_, ?_⟩
  · show byteLength before + byteLength part ≤ text.utf8ByteSize
    rw [total, stop]
    exact Nat.le_add_right _ _
  · show Text.IsBoundary text (byteLength before + byteLength part)
    rw [← stop]
    exact Text.isBoundary_of_append beforeRest
  · show before.length + 1 = 1 + (Text.between text 0 (byteLength before)).length
    have front : text.toList = [] ++ (before ++ (part ++ after)) := whole
    have first := Text.between_eq front
    rw [show byteLength [] = 0 from rfl, Nat.zero_add] at first
    rw [first, String.length_ofList, Nat.add_comm]

/-- What stands at a span is the part that it covers. -/
theorem between_eq (covers : span.Covers line text.toList part) :
    Text.between text span.start span.stop = String.ofList part := by
  obtain ⟨before, after, whole, rfl⟩ := covers
  exact Text.between_eq whole

end Span.Covers

namespace Lexer

/-! ### Requests -/

/-- What a lexer can be asked for. -/
inductive Request where
  | token
  | rest
  deriving DecidableEq, Repr

def answer (lexer : Lexer) : Request → Except LexError Lexeme × Lexer
  | .token => lexer.next
  | .rest => (.ok lexer.takeRest.1, lexer.takeRest.2)

/-- What a lexer answers to requests, also after it has failed. -/
def answers (lexer : Lexer) : List Request → List (Except LexError Lexeme)
  | [] => []
  | request :: requests =>
    (lexer.answer request).1 :: answers (lexer.answer request).2 requests

/-- The lexer after requests. -/
def afterAll (lexer : Lexer) (requests : List Request) : Lexer :=
  requests.foldl (fun lexer request => (lexer.answer request).2) lexer

/-- The place that an answer names. -/
def placeOf : Except LexError Lexeme → Span
  | .ok lexeme => lexeme.span
  | .error error => error.span

/-- A lexer holds what stands in a text after its offset. -/
structure Holds (text : String) (lexer : Lexer) : Prop where
  boundary : Text.IsBoundary text lexer.offset
  remaining : String.ofList lexer.rest = Text.between text lexer.offset text.utf8ByteSize
  suffix : lexer.rest <:+ text.toList

/-- From one lexer to another, a gap is left out and a part is covered by a span. -/
structure Takes (text : String) (line : Nat) (lexer after : Lexer) (span : Span)
    (gap part : String) : Prop extends span.Fits text line where
  follows : lexer.offset ≤ span.start
  gap : Text.between text lexer.offset span.start = gap
  part : Text.between text span.start span.stop = part
  goesOn : after.offset = span.stop

/-- What a lexer in a line answers to a request. -/
inductive Tiles (text : String) (line : Nat) (lexer : Lexer) :
    Request → Except LexError Lexeme × Lexer → Prop where
  /-- A token is covered as it is written, after blanks. -/
  | token {lexeme : Lexeme} {after : Lexer} {gap : String} (blank : Text.isBlankLine gap = true)
      (takes : Takes text line lexer after lexeme.span gap lexeme.token.shown)
      (shortens : lexeme.kind ≠ .empty → after.rest.length < lexer.rest.length) :
      Tiles text line lexer .token (.ok lexeme, after)
  /-- A string that is never closed is covered from its quote to the end of the line. -/
  | unterminated {span : Span} {after : Lexer} {gap raw : String}
      (blank : Text.isBlankLine gap = true)
      (takes : Takes text line lexer after span gap ("\"" ++ raw))
      (ends : span.stop = text.utf8ByteSize)
      (shortens : after.rest.length < lexer.rest.length) :
      Tiles text line lexer .token (.error (.unterminatedString span), after)
  /-- The rest of the line is covered after at most one space. -/
  | rest {lexeme : Lexeme} {after : Lexer} {gap : String} (space : gap = "" ∨ gap = " ")
      (takes : Takes text line lexer after lexeme.span gap lexeme.token.text)
      (ends : lexeme.span.stop = text.utf8ByteSize) :
      Tiles text line lexer .rest (.ok lexeme, after)

/-- Whether an answer is the last one that takes anything off the line: the empty token, the
rest of the line, or a string that is never closed. -/
def Exhausts : Request → Except LexError Lexeme → Prop
  | .rest, _ => True
  | .token, .error _ => True
  | .token, .ok lexeme => lexeme.kind = .empty

/-! ### One request -/

variable {text : String} {line : Nat} {lexer : Lexer}

theorem In.holds (stands : lexer.In line text.toList) : lexer.Holds text := by
  obtain ⟨before, whole, same⟩ := stands
  have offset : lexer.offset = byteLength before := congrArg Lexer.offset same
  refine ⟨?_, ?_, ⟨before, whole.symm⟩⟩
  · rw [offset]
    exact Text.isBoundary_of_append whole
  · have total : text.utf8ByteSize = byteLength before + byteLength lexer.rest := by
      rw [← byteLength_toList, ← byteLength_append, ← whole]
    have slice : text.toList = before ++ (lexer.rest ++ []) := by rw [List.append_nil, whole]
    rw [offset, total, Text.between_eq slice]

/-- What stands next in a line is taken off it, first a gap and then a part. -/
theorem In.takes (stands : lexer.In line text.toList) {gap part rest : List Char}
    (front : lexer.rest = gap ++ (part ++ rest)) :
    Takes text line lexer ((lexer.advance gap (part ++ rest)).advance part rest)
      ((lexer.advance gap (part ++ rest)).spanTo
        ((lexer.advance gap (part ++ rest)).advance part rest))
      (String.ofList gap) (String.ofList part) := by
  have covers : Span.Covers line text.toList ((lexer.advance gap (part ++ rest)).spanTo
      ((lexer.advance gap (part ++ rest)).advance part rest)) part :=
    (stands.advance front).spanTo rfl
  obtain ⟨before, whole, same⟩ := stands
  have offset : lexer.offset = byteLength before := congrArg Lexer.offset same
  refine ⟨covers.fits, Nat.le_add_right _ _, ?_, covers.between_eq, rfl⟩
  show Text.between text lexer.offset (lexer.offset + byteLength gap) = _
  rw [front] at whole
  rw [offset]
  exact Text.between_eq whole

/-- The blanks that a lexer passes over are a gap before what it stands at then. -/
theorem exists_gap {lexer : Lexer} {left : List Char}
    (remains : lexer.rest.dropWhile Text.isBlank = left) :
    ∃ gap, Text.isBlankLine (String.ofList gap) = true ∧ lexer.rest = gap ++ left ∧
      lexer.skipBlanks = lexer.advance gap left := by
  refine ⟨lexer.rest.takeWhile Text.isBlank, ?_, ?_, ?_⟩
  · rw [Text.isBlankLine, String.toList_ofList]
    exact List.all_takeWhile
  · rw [← remains, List.takeWhile_append_dropWhile]
  · rw [Lexer.skipBlanks, remains]

/-- Where no token can be read although no blank stands there, a quote stands there. -/
theorem exists_quote_of_read?_none {text : List Char} (none : Token.read? text = none) :
    ∃ raw, text = '"' :: raw := by
  unfold Token.read? at none
  split at none
  case h_7 raw => exact ⟨raw, rfl⟩
  all_goals cases none

/-- Taking all that is left ends at the end of the line. -/
theorem In.offset_of_rest_nil (stands : lexer.In line text.toList) (nothing : lexer.rest = []) :
    lexer.offset = text.utf8ByteSize := by
  obtain ⟨before, whole, same⟩ := stands
  rw [nothing, List.append_nil] at whole
  rw [same, ← byteLength_toList, whole]

theorem In.tiles_token (stands : lexer.In line text.toList) :
    Tiles text line lexer .token lexer.next := by
  cases found : Token.read? (lexer.rest.dropWhile Text.isBlank) with
  | none =>
    obtain ⟨raw, quote⟩ := exists_quote_of_read?_none found
    obtain ⟨gap, blank, front, skipped⟩ := exists_gap quote
    have quoted : String.ofList ('"' :: raw) = "\"" ++ String.ofList raw :=
      @String.ofList_append ['"'] raw
    have whole : lexer.rest = gap ++ ('"' :: raw ++ []) := by rw [front, List.append_nil]
    have takes := stands.takes whole
    have ends := ((stands.advance whole).advance rfl).offset_of_rest_nil rfl
    rw [quoted, List.append_nil] at takes
    rw [List.append_nil] at ends
    rw [next_of_read?_none found, skipped]
    refine .unterminated blank takes (takes.goesOn.symm.trans ends) ?_
    rw [front]
    exact List.length_pos_of_ne_nil (List.append_ne_nil_of_right_ne_nil _ (List.cons_ne_nil _ _))
  | some parts =>
    obtain ⟨token, rest⟩ := parts
    obtain ⟨gap, blank, front, skipped⟩ := exists_gap (written_of_found found)
    have shortens := next_shortens lexer _ _ (next_of_read? found)
    rw [next_of_read? found]
    rw [skipped] at shortens ⊢
    exact .token blank (stands.takes front) shortens

/-- The rest of a line is what is left, without a space before it. -/
theorem takeRest_eq (lexer : Lexer) :
    ∃ gap left, (gap = [] ∨ gap = [' ']) ∧ lexer.rest = gap ++ (left ++ []) ∧
      lexer.takeRest =
        (⟨.string (String.ofList left), (lexer.advance gap (left ++ [])).spanTo
          ((lexer.advance gap (left ++ [])).advance left [])⟩,
        (lexer.advance gap (left ++ [])).advance left []) := by
  unfold takeRest
  split
  · rename_i rest front
    refine ⟨[' '], rest, .inr rfl, ?_, ?_⟩
    · rw [front, List.append_nil]
      rfl
    · rw [List.append_nil]
      rfl
  · refine ⟨[], lexer.rest, .inl rfl, (List.append_nil _).symm, ?_⟩
    rw [List.append_nil]
    rfl

theorem In.tiles_rest (stands : lexer.In line text.toList) :
    Tiles text line lexer .rest (.ok lexer.takeRest.1, lexer.takeRest.2) := by
  obtain ⟨gap, left, space, front, same⟩ := takeRest_eq lexer
  have takes := stands.takes front
  have ends := ((stands.advance front).advance rfl).offset_of_rest_nil rfl
  rw [same]
  refine .rest ?_ takes (takes.goesOn.symm.trans ends)
  rcases space with rfl | rfl
  · exact .inl rfl
  · exact .inr rfl

theorem In.tiles (stands : lexer.In line text.toList) (request : Request) :
    Tiles text line lexer request (lexer.answer request) := by
  cases request with
  | token => exact stands.tiles_token
  | rest => exact stands.tiles_rest

/-- Answering a request keeps a lexer in its line, also where it fails. -/
theorem In.answer (stands : lexer.In line text.toList) (request : Request) :
    (lexer.answer request).2.In line text.toList := by
  cases request with
  | token =>
    show lexer.next.2.In line text.toList
    cases found : Token.read? (lexer.rest.dropWhile Text.isBlank) with
    | none =>
      rw [next_of_read?_none found]
      exact stands.skipBlanks.advance (List.append_nil _).symm
    | some parts =>
      rw [next_of_read? found]
      exact stands.skipBlanks.advance (written_of_found found)
  | rest =>
    obtain ⟨gap, left, -, front, same⟩ := takeRest_eq lexer
    show lexer.takeRest.2.In line text.toList
    rw [same]
    exact (stands.advance front).advance rfl

theorem In.afterAll (stands : lexer.In line text.toList) (requests : List Request) :
    (lexer.afterAll requests).In line text.toList := by
  induction requests generalizing lexer with
  | nil => exact stands
  | cons request requests inductionHypothesis => exact inductionHypothesis (stands.answer request)

/-! ### The order of the answers -/

theorem Tiles.place {request : Request} {result : Except LexError Lexeme × Lexer}
    (tiles : Tiles text line lexer request result) :
    lexer.offset ≤ (placeOf result.1).start ∧
      (placeOf result.1).start ≤ (placeOf result.1).stop ∧
      result.2.offset = (placeOf result.1).stop := by
  cases tiles with
  | token _ takes _ | unterminated _ takes _ _ | rest _ takes _ =>
    exact ⟨takes.follows, takes.ordered, takes.goesOn⟩

theorem In.offset_le_of_mem (stands : lexer.In line text.toList) {requests : List Request}
    {outcome : Except LexError Lexeme} (member : outcome ∈ lexer.answers requests) :
    lexer.offset ≤ (placeOf outcome).start := by
  induction requests generalizing lexer with
  | nil => cases member
  | cons request requests inductionHypothesis =>
    obtain ⟨follows, ordered, goesOn⟩ := (stands.tiles request).place
    rcases List.mem_cons.mp member with rfl | later
    · exact follows
    · exact (follows.trans ordered).trans
        (goesOn.symm.le.trans (inductionHypothesis (stands.answer request) later))

theorem In.pairwise (stands : lexer.In line text.toList) (requests : List Request) :
    (lexer.answers requests).Pairwise fun former latter =>
      (placeOf former).stop ≤ (placeOf latter).start := by
  induction requests generalizing lexer with
  | nil => exact .nil
  | cons request requests inductionHypothesis =>
    obtain ⟨-, -, goesOn⟩ := (stands.tiles request).place
    refine .cons (fun latter member => ?_) (inductionHypothesis (stands.answer request))
    rw [← goesOn]
    exact (stands.answer request).offset_le_of_mem member

/-! ### The end of the line -/

/-- A lexer that holds nothing stays as it is, whatever it is asked for. -/
theorem afterAll_of_rest_nil (nothing : lexer.rest = []) (requests : List Request) :
    lexer.afterAll requests = lexer := by
  obtain ⟨number, column, offset, rest⟩ := lexer
  cases nothing
  induction requests with
  | nil => rfl
  | cons request requests inductionHypothesis =>
    cases request <;> exact inductionHypothesis

theorem next_of_rest_nil (nothing : lexer.rest = []) :
    lexer.next = (.ok ⟨.empty, ⟨lexer.line, lexer.column, lexer.offset, lexer.offset⟩⟩, lexer) := by
  obtain ⟨number, column, offset, rest⟩ := lexer
  cases nothing
  rfl

/-- The empty token is read only where nothing is left. -/
theorem rest_nil_of_read?_empty {rest : List Char}
    (found : Token.read? (lexer.rest.dropWhile Text.isBlank) = some (.empty, rest)) : rest = [] := by
  have front : lexer.rest.dropWhile Text.isBlank = rest := written_of_found found
  cases rest with
  | nil => rfl
  | cons character tail =>
    rw [front] at found
    exact absurd found
      (Token.read?_cons_ne_empty (skipBlanks_visible lexer character tail front) _)

theorem rest_nil_of_exhausts {request : Request}
    (exhausts : Exhausts request (lexer.answer request).1) :
    (lexer.answer request).2.rest = [] := by
  cases request with
  | rest => rfl
  | token =>
    show lexer.next.2.rest = []
    cases found : Token.read? (lexer.rest.dropWhile Text.isBlank) with
    | none =>
      rw [next_of_read?_none found]
      rfl
    | some parts =>
      obtain ⟨token, rest⟩ := parts
      have outcome : (lexer.answer .token).1 = .ok ⟨token, _⟩ :=
        congrArg Prod.fst (next_of_read? found)
      rw [outcome] at exhausts
      obtain rfl := (Token.kind_eq_empty_iff token).mp exhausts
      rw [next_of_read? found]
      exact rest_nil_of_read?_empty found

/-- The place at the end of a line. -/
def endOf (text : String) (line : Nat) : Span :=
  ⟨line, 1 + text.length, text.utf8ByteSize, text.utf8ByteSize⟩

theorem In.next_of_rest_nil (stands : lexer.In line text.toList) (nothing : lexer.rest = []) :
    lexer.next = (.ok ⟨.empty, endOf text line⟩, lexer) := by
  have offset := stands.offset_of_rest_nil nothing
  obtain ⟨before, whole, same⟩ := stands
  have number : lexer.line = line := congrArg Lexer.line same
  have column : lexer.column = before.length + 1 := congrArg Lexer.column same
  rw [nothing, List.append_nil] at whole
  rw [Lexer.next_of_rest_nil nothing, offset, number, column, ← whole, endOf, Nat.add_comm 1]
  rfl

/-! ### Whole lines -/

/-- A lexer accounts for a line: it holds what is left of it, whatever it is asked for takes what
stands next, and once it has yielded the last of it there is only the end of the line. -/
structure Accounts (text : String) (line : Nat) (lexer : Lexer) : Prop where
  holds : lexer.Holds text
  tiles (request : Request) : Tiles text line lexer request (lexer.answer request)
  ends (request : Request) (exhausts : Exhausts request (lexer.answer request).1)
    (later : List Request) :
    ((lexer.answer request).2.afterAll later).next.1 = .ok ⟨.empty, endOf text line⟩

theorem In.accounts (stands : lexer.In line text.toList) : lexer.Accounts text line where
  holds := stands.holds
  tiles := stands.tiles
  ends request exhausts later := by
    have nothing := rest_nil_of_exhausts exhausts
    rw [afterAll_of_rest_nil nothing, (stands.answer request).next_of_rest_nil nothing]

/-- After any requests a lexer accounts for its line, and the answers to them cover parts of the
line that stand one after the other. -/
theorem requests_tile (text : String) (line : Nat) (requests : List Request) :
    ((ofLine text line).afterAll requests).Accounts text line ∧
      ((ofLine text line).answers requests).Pairwise fun former latter =>
        (placeOf former).stop ≤ (placeOf latter).start :=
  ⟨((ofLine_in line text).afterAll requests).accounts, (ofLine_in line text).pairwise requests⟩

/-- Bytes and columns drift apart behind a character of two bytes. -/
example : (ofLine "é \"x" 7).answers [.token, .token, .token] =
    [.ok ⟨.identifier "é", ⟨7, 1, 0, 2⟩⟩, .error (.unterminatedString ⟨7, 3, 3, 5⟩),
      .ok ⟨.empty, ⟨7, 5, 5, 5⟩⟩] := rfl

end Lexer

end YaraReport
