/-
This file defines the remarks that the readers make while they read. A note
changes no result. Entries that are left out are warnings, all else is detail.
-/

import YaraReport.Violation

namespace YaraReport

inductive EntryList where
  | tags
  | metadata
  deriving DecidableEq, Repr

def EntryList.entryName : EntryList → String
  | .tags => "tag"
  | .metadata => "metadata"

inductive Note.Level where
  | warning
  | detail
  deriving DecidableEq, Repr

inductive Note where
  | skippedEntry (list : EntryList) (first : Lexeme)
  | ignoredTokens (identifier : String) (span : Span)
  | header (identifier : String) (tags metadata : Nat)
  | nonNumericLine (text : String)
  deriving DecidableEq, Repr

namespace Note

def level : Note → Level
  | .skippedEntry _ _ => .warning
  | _ => .detail

def message : Note → String
  | .skippedEntry list first =>
    "skipped malformed " ++ list.entryName ++ " entry starting with " ++
      first.token.displayName ++ Violation.atPlace first.span
  | .ignoredTokens identifier span =>
    "ignoring trailing tokens after metadata '" ++ identifier ++ "'" ++ Violation.atPlace span
  | .header identifier tags metadata =>
    "rule '" ++ identifier ++ "' with " ++ toString tags ++ " tags and " ++
      toString metadata ++ " metadata entries"
  | .nonNumericLine text => "diagnostic line number '" ++ text ++ "' is not numeric"

/-- The number of entries that the notes say were left out. -/
def skippedCount (notes : List Note) : Nat :=
  notes.countP fun note => note.level = .warning

end Note

/-- What a reader made of a piece of text, and what it remarked on the way. -/
structure Reading (Value : Type) where
  /-- The remarks in order. -/
  notes : List Note
  outcome : Except Violation Value

end YaraReport
