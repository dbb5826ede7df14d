/-
This file defines what a scan reports: rules with their tags, metadata and
string matches. Matches come in the order of the scan. Neighbouring matches of
one string share an entry, so the entries are the runs of equal identifiers.
-/

namespace YaraReport

inductive MetaValue where
  | string (text : String)
  | integer (value : Int64)
  | boolean (value : Bool)
  deriving DecidableEq

structure Meta where
  identifier : String
  value : MetaValue
  deriving DecidableEq

/-- One place where a string of a rule was found. -/
structure Match where
  offset : UInt64
  value : String
  deriving DecidableEq

structure StringMatch where
  identifier : String
  /-- The matches in order. -/
  occurrences : List Match
  deriving DecidableEq

structure Rule where
  identifier : String
  /-- Its tags in order. -/
  tags : List String
  /-- Its metadata in order. -/
  metadata : List Meta
  /-- The runs of its string matches in order. -/
  strings : List StringMatch
  deriving DecidableEq

namespace MetaValue

/-- The value as it is shown: a string stands in quotes, without escapes. -/
def shown : MetaValue → String
  | .string text => "\"" ++ text ++ "\""
  | .integer value => toString value.toInt
  | .boolean true => "true"
  | .boolean false => "false"

def text? : MetaValue → Option String
  | .string text => some text
  | _ => none

/-- The number of a value; a truth value counts as zero or one. -/
def integer? : MetaValue → Option Int64
  | .integer value => some value
  | .boolean value => some (if value then 1 else 0)
  | .string _ => none

end MetaValue

namespace StringMatch

/-- Adds a match at the end: to the last run when that is of the same string, else as a new
run. -/
def add (identifier : String) (occurrence : Match) : List StringMatch → List StringMatch
  | [] => [⟨identifier, [occurrence]⟩]
  | [last] =>
    if last.identifier = identifier then [⟨last.identifier, last.occurrences ++ [occurrence]⟩]
    else [last, ⟨identifier, [occurrence]⟩]
  | first :: second :: rest => first :: add identifier occurrence (second :: rest)

end StringMatch

namespace Rule

def named (identifier : String) : Rule := ⟨identifier, [], [], []⟩

def metadata? (rule : Rule) (identifier : String) : Option Meta :=
  rule.metadata.find? fun entry => entry.identifier = identifier

def hasTag (rule : Rule) (tag : String) : Bool :=
  rule.tags.any fun own => own = tag

def pushMatch (rule : Rule) (identifier : String) (occurrence : Match) : Rule :=
  { rule with strings := StringMatch.add identifier occurrence rule.strings }

end Rule

end YaraReport
