/-
This file reads a rule header, the line

    NAME [tag,tag] [name=value,name=value] TARGET

Both lists are read in groups of tokens up to a comma or the closing bracket;
what follows the second list is not read at all. An entry that does not begin as
its list demands is left out and noted. A metadata entry that begins with a name
must go on with an equals sign and a value; tokens after the value are passed
over.
-/

import YaraReport.Token.Cursor
import YaraReport.Text.Escape
import YaraReport.Note
import YaraReport.Rule

namespace YaraReport

def Group.first (group : Group) : Lexeme := group.body.head?.getD group.stop

/-- Whether nothing stands between the group's beginning and the bracket that closes the
list. -/
def Group.isClosing (group : Group) : Bool :=
  group.body.isEmpty && group.stop.kind = .rightBracket

namespace Header

/-! ### The groups of a list -/

/-- A bracketed list after its opening bracket. -/
structure Entries where
  groups : List Group
  /-- What stops reading before the closing bracket, if anything does. -/
  failure : Option Violation
  after : Lexer

def entries (lexer : Lexer) : Entries :=
  match found : lexer.nextUntil [.comma, .rightBracket] with
  | (.error error, after) => ⟨[], some (.lex error), after⟩
  | (.ok group, after) =>
    if group.stop.kind = .rightBracket then ⟨[group], none, after⟩
    else if separated : group.stop.kind = .comma then
      have := Lexer.nextUntil_shortens _ lexer group after found (by simp [separated])
      ⟨group :: (entries after).groups, (entries after).failure, (entries after).after⟩
    else ⟨[], some (.unexpectedEnd .separator group.stop.span), after⟩
termination_by lexer.rest.length

/-- A list is one group that ends reading, or a group before the list that follows. -/
theorem entries_eq (lexer : Lexer) :
    entries lexer =
      match lexer.nextUntil [.comma, .rightBracket] with
      | (.error error, after) => ⟨[], some (.lex error), after⟩
      | (.ok group, after) =>
        if group.stop.kind = .rightBracket then ⟨[group], none, after⟩
        else if group.stop.kind = .comma then
          ⟨group :: (entries after).groups, (entries after).failure, (entries after).after⟩
        else ⟨[], some (.unexpectedEnd .separator group.stop.span), after⟩ := by
  rw [entries]
  split <;> simp_all

/-! ### Tags -/

/-- The tag that a group stands for: its first token, when that is a word or a string. -/
def tag? (group : Group) : Option String :=
  match group.first.token with
  | .identifier text => some text
  | .number text => some text
  | .string raw => some raw
  | _ => none

def tags (groups : List Group) : List String := groups.filterMap tag?

/-- The remarks on the entries of a tag list that are left out. -/
def tagNotes (groups : List Group) : List Note :=
  groups.filterMap fun group =>
    if group.isClosing || (tag? group).isSome then none
    else some (.skippedEntry .tags group.first)

/-! ### Metadata -/

/-- The violation of a token that is not what an entry must go on with. A separator or the end
of the line means that the entry is too short. -/
def unexpected (expected : Expectation) (found : Lexeme) : Violation :=
  match found.token with
  | .empty | .comma | .rightBracket => .unexpectedEnd expected found.span
  | token => .unexpectedToken expected token found.span

/-- The magnitude that a numeral without sign denotes, as a signed word of 128 bits, when it
fits one. -/
def magnitude? (digits : List Char) : Option (BitVec 128) :=
  match Text.unsigned? digits with
  | some value =>
    if value < 0x80000000000000000000000000000000 then some (BitVec.ofNat 128 value) else none
  | none => none

/-- A wide word as a machine integer, when it fits one. -/
def narrow? (wide : BitVec 128) : Option Int64 :=
  if -0x8000000000000000 ≤ wide.toInt && wide.toInt < 0x8000000000000000 then
    some (Int64.ofInt wide.toInt)
  else none

/-- The machine integer that a numeral denotes. Its magnitude is read without the sign, since
that of the least integer is no machine integer itself. -/
def integer? (text : String) : Option Int64 :=
  match magnitude? (Text.splitSign text.toList).2 with
  | some magnitude => narrow? (if (Text.splitSign text.toList).1 then -magnitude else magnitude)
  | none => none

/-- The truth value that a word denotes, in any case of its letters. -/
def boolean? (text : String) : Option Bool :=
  match String.ofList (text.toList.map Char.toLower) with
  | "true" => some true
  | "false" => some false
  | _ => none

def metadataValue (lexeme : Lexeme) : Except Violation MetaValue :=
  match lexeme.token with
  | .string raw => .ok (.string (Text.unescaped raw))
  | .number text =>
    match integer? text with
    | some value => .ok (.integer value)
    | none => .error (.numericDecode text lexeme.span)
  | .identifier text =>
    match boolean? text with
    | some value => .ok (.boolean value)
    | none => .error (.invalidBoolean text lexeme.span)
  | _ => .error (unexpected .metadataValue lexeme)

/-- The token of a group at a position, the one that stops the group at any later one. -/
def tokenAt (group : Group) (position : Nat) : Lexeme :=
  group.body[position]?.getD group.stop

/-- The metadata entry of a group that begins with a name. -/
def entry (identifier : String) (group : Group) : Except Violation Meta :=
  if (tokenAt group 1).kind = .equals then
    (metadataValue (tokenAt group 2)).map fun value => ⟨identifier, value⟩
  else .error (unexpected (.token .equals) (tokenAt group 1))

def ignoredNotes (identifier : String) (group : Group) : List Note :=
  match group.body.drop 3 with
  | [] => []
  | first :: rest =>
    [.ignoredTokens identifier (first.span.merge (rest.getLast?.getD first).span)]

/-- The metadata of a list, up to the first entry that breaks the format. -/
def metadata : List Group → Reading (List Meta)
  | [] => ⟨[], .ok []⟩
  | group :: groups =>
    if group.isClosing then metadata groups
    else
      match group.first.token with
      | .identifier identifier =>
        match entry identifier group with
        | .error violation => ⟨[], .error violation⟩
        | .ok value =>
          ⟨ignoredNotes identifier group ++ (metadata groups).notes,
            (metadata groups).outcome.map (value :: ·)⟩
      | _ =>
        ⟨.skippedEntry .metadata group.first :: (metadata groups).notes,
          (metadata groups).outcome⟩

/-! ### The whole header -/

/-- Reads the name of a rule and what opens its tag list. -/
def opening (lexer : Lexer) : Except Violation (String × Lexer) :=
  match lexer.expect .identifier with
  | (.error violation, _) => .error violation
  | (.ok name, after) =>
    match after.expect .leftBracket with
    | (.error violation, _) => .error violation
    | (.ok _, after) => .ok (name.token.text, after)

def assemble (name : String) (tagGroups : List Group) (list : Entries) : Reading Rule :=
  match (metadata list.groups).outcome, list.failure with
  | .error violation, _ => ⟨(metadata list.groups).notes, .error violation⟩
  | .ok _, some violation => ⟨(metadata list.groups).notes, .error violation⟩
  | .ok values, none =>
    ⟨(metadata list.groups).notes ++ [.header name (tags tagGroups).length values.length],
      .ok ⟨name, tags tagGroups, values, []⟩⟩

/-- Reads the metadata list of a header whose tag list is read. -/
def closing (name : String) (list : Entries) : Reading Rule :=
  match list.failure with
  | some violation => ⟨[], .error violation⟩
  | none =>
    match list.after.expect .leftBracket with
    | (.error violation, _) => ⟨[], .error violation⟩
    | (.ok _, after) => assemble name list.groups (entries after)

def read (line : Nat) (text : String) : Reading Rule :=
  match opening (Lexer.ofLine text line) with
  | .error violation => ⟨[], .error violation⟩
  | .ok (name, after) =>
    ⟨tagNotes (entries after).groups ++ (closing name (entries after)).notes,
      (closing name (entries after)).outcome⟩

end Header

end YaraReport
