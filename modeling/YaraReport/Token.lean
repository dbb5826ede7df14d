/-
This file defines the tokens that the scanner's output lines are built from: six
delimiters, three kinds of words, and the empty token that stands for the end of
a line. A quoted string keeps its raw text: escapes are resolved where the value
is used, not where it is read.
-/

import YaraReport.Span
import YaraReport.Text.Numeral

namespace YaraReport

inductive Token.Kind where
  | identifier
  | number
  | string
  | equals
  | comma
  | colon
  | leftBracket
  | rightBracket
  | empty
  deriving DecidableEq, Repr

/-- A token with its raw text where the kind alone does not determine it. -/
inductive Token where
  | identifier (text : String)
  | number (text : String)
  | string (raw : String)
  | equals
  | comma
  | colon
  | leftBracket
  | rightBracket
  | empty
  deriving DecidableEq, Repr, Inhabited

namespace Token

def Kind.all : List Kind :=
  [.identifier, .number, .string, .equals, .comma, .colon, .leftBracket, .rightBracket, .empty]

def Kind.displayName : Kind → String
  | .identifier => "identifier"
  | .number => "number"
  | .string => "string"
  | .equals => "'='"
  | .comma => "','"
  | .colon => "':'"
  | .leftBracket => "'['"
  | .rightBracket => "']'"
  | .empty => "end of line"

def kind : Token → Kind
  | .identifier _ => .identifier
  | .number _ => .number
  | .string _ => .string
  | .equals => .equals
  | .comma => .comma
  | .colon => .colon
  | .leftBracket => .leftBracket
  | .rightBracket => .rightBracket
  | .empty => .empty

/-- The raw text of a token, for a string what stands between its quotes. -/
def text : Token → String
  | .identifier text => text
  | .number text => text
  | .string raw => raw
  | .equals => "="
  | .comma => ","
  | .colon => ":"
  | .leftBracket => "["
  | .rightBracket => "]"
  | .empty => ""

def written : Token → List Char
  | .string raw => '"' :: (raw.toList ++ ['"'])
  | token => token.text.toList

def shown (token : Token) : String :=
  String.ofList token.written

def displayName : Token → String
  | .number text => "number " ++ text
  | .string raw => "string \"" ++ raw ++ "\""
  | .empty => "end of line"
  | token => "'" ++ token.text ++ "'"

/-! ### Words -/

/-- Whether a character ends a word and is a token of its own, or begins a string. -/
def isDelimiter : Char → Bool
  | '[' | ']' | ',' | ':' | '=' | '"' => true
  | _ => false

/-- Whether a text is a numeral: decimal or, after `0x` or `0X`, hexadecimal digits, with an
optional minus sign. -/
def isNumeral (text : List Char) : Bool :=
  (Text.signed? text).isSome

def ofWord (word : List Char) : Token :=
  if isNumeral word then .number (String.ofList word) else .identifier (String.ofList word)

end Token

/-- A token and the place where it stands. -/
structure Lexeme where
  token : Token
  span : Span
  deriving DecidableEq, Repr, Inhabited

def Lexeme.kind (lexeme : Lexeme) : Token.Kind := lexeme.token.kind

end YaraReport
