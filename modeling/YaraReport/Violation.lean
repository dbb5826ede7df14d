/-
This file names everything that can be wrong with a line of scanner output. A
violation is fatal for the stream it occurs in; it is kept as its cause, and one
function words it. Entries of a tag or metadata list that cannot be read are not
violations: they are left out, and a note says so.
-/

import YaraReport.Token

namespace YaraReport

inductive LexError where
  /-- A string without a closing quote; the span runs to the end of the line. -/
  | unterminatedString (span : Span)
  deriving DecidableEq, Repr

namespace LexError

def span : LexError → Span
  | .unterminatedString span => span

def message : LexError → String
  | .unterminatedString _ => "unterminated string literal"

end LexError

/-- What a line should have gone on with. -/
inductive Expectation where
  | token (kind : Token.Kind)
  | separator
  | metadataValue
  deriving DecidableEq, Repr

def Expectation.displayName : Expectation → String
  | .token kind => kind.displayName
  | .separator => "',' or ']'"
  | .metadataValue => "metadata value"

/-- What breaks the format of scanner output. -/
inductive Violation where
  | unexpectedToken (expected : Expectation) (found : Token) (span : Span)
  | unexpectedEnd (expected : Expectation) (span : Span)
  | orphanMatch (line : Nat)
  | numericDecode (text : String) (span : Span)
  | invalidBoolean (text : String) (span : Span)
  | lex (error : LexError)
  | aborted
  deriving DecidableEq, Repr

namespace Violation

/-- Where the violation stands, when it stands at a piece of a line. -/
def span? : Violation → Option Span
  | .unexpectedToken _ _ span => some span
  | .unexpectedEnd _ span => some span
  | .numericDecode _ span => some span
  | .invalidBoolean _ span => some span
  | .lex error => some error.span
  | .orphanMatch _ | .aborted => none

/-- The number of the line in which the violation stands. -/
def line? : Violation → Option Nat
  | .orphanMatch line => some line
  | violation => violation.span?.map Span.line

def atPlace (span : Span) : String :=
  " at line " ++ toString span.line ++ ", column " ++ toString span.column

def message : Violation → String
  | .unexpectedToken expected found span =>
    "expected " ++ expected.displayName ++ ", found " ++ found.displayName ++ atPlace span
  | .unexpectedEnd expected span =>
    "unexpected end of line " ++ toString span.line ++ ", expected " ++ expected.displayName
  | .orphanMatch line =>
    "string match on line " ++ toString line ++ " does not belong to any rule"
  | .numericDecode text span => "cannot decode number '" ++ text ++ "'" ++ atPlace span
  | .invalidBoolean text span =>
    "expected 'true' or 'false', found '" ++ text ++ "'" ++ atPlace span
  | .lex error => error.message ++ atPlace error.span
  | .aborted => "parsing was aborted by an earlier protocol violation"

/-- The violation in words, then the words of what caused it, if something did. -/
def messages : Violation → List String
  | .lex error => [message (.lex error), error.message]
  | violation => [violation.message]

end Violation

end YaraReport
