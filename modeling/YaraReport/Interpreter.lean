/-
This file reads the first line of a script, which names the program that is to run
it. The line begins with a number sign and an exclamation mark; the name follows,
and what follows the name is one argument, however many words it has. Only the
first bytes of a file are looked at. A name that may go on beyond them is not
taken, as half a name would be another one.
-/

import YaraReport.Text.Utf8

namespace YaraReport

structure Interpreter where
  path : String
  argument : Option String
  deriving DecidableEq, Repr

namespace Interpreter

/-- The number of bytes that are looked at after the first two. -/
def window : Nat := 254

def isBlank (byte : UInt8) : Bool := byte = 0x20 || byte = 0x09

def isEnd (byte : UInt8) : Bool := byte = 0x00 || byte = 0x0A

def trimEnd (line : List UInt8) : List UInt8 := (line.reverse.dropWhile isBlank).reverse

/-- The interpreter that a line names. Where the name is empty the path is that of the working
directory. -/
def ofLine (line : List UInt8) : Interpreter :=
  let visible := line.dropWhile isBlank
  let name := visible.takeWhile fun byte => !isBlank byte
  let rest := visible.dropWhile fun byte => !isBlank byte
  { path := if name.isEmpty then "." else Text.Utf8.toStringLossy name
    argument :=
      if rest.isEmpty then none else some (Text.Utf8.toStringLossy (rest.dropWhile isBlank)) }

/-- The interpreter that a line names which goes on beyond the window. The name must be closed
by a blank; the last byte of the window counts for that, but is not part of the argument. -/
def ofCutLine? (line : List UInt8) : Option Interpreter :=
  if (line.dropWhile isBlank).any isBlank then some (ofLine (trimEnd line.dropLast)) else none

/-- The interpreter that the bytes after the first two name. A line that is closed by a newline
names one unless it is blank. -/
def ofWindow? (bytes : List UInt8) : Option Interpreter :=
  let line := bytes.takeWhile fun byte => !isEnd byte
  match bytes.drop line.length with
  | 0x0A :: _ => if line.all isBlank then none else some (ofLine (trimEnd line))
  | _ => if line.length = window then ofCutLine? line else some (ofLine line)

/-- The interpreter that a file names, if it is a script. -/
def ofContent? : List UInt8 → Option Interpreter
  | 0x23 :: 0x21 :: rest => ofWindow? (rest.take window)
  | _ => none

/-- The arguments that the interpreter gets before those of the script. -/
def arguments (interpreter : Interpreter) (script : String) : List String :=
  interpreter.argument.toList ++ [script]

end Interpreter

end YaraReport
