/-
This file resolves the escapes inside a quoted string. Five are known: a
backslash before a double quote, a single quote, another backslash, `n` or `t`.
Any other backslash stands for itself, one at the end of the text included.
-/

namespace YaraReport.Text

/-- The character that a backslash and the given one stand for together. -/
def escaped? : Char → Option Char
  | '"' => some '"'
  | '\'' => some '\''
  | '\\' => some '\\'
  | 'n' => some '\n'
  | 't' => some '\t'
  | _ => none

def unescape : List Char → List Char
  | '\\' :: next :: rest =>
    match escaped? next with
    | some meant => meant :: unescape rest
    | none => '\\' :: next :: unescape rest
  | character :: rest => character :: unescape rest
  | [] => []

def unescaped (text : String) : String :=
  String.ofList (unescape text.toList)

end YaraReport.Text
