/-
This file names the refusals that a request to the operating system can meet, with
the words they are reported with. Most come from the system itself and have a
number. A text with a zero character in it cannot even be handed over, as the
system takes that character for the end of the text; such a refusal has none, and
neither have those that are found out without the system.
-/

import YaraReport.Path

namespace YaraReport

/-- Why a request to the operating system is refused. -/
inductive SystemError where
  | notFound
  | argumentsTooLong
  | notRunnable
  | notPermitted
  | alreadyThere
  | notDirectory
  | isDirectory
  | nameTooLong
  | tooManyLinks
  | zeroInPath
  | zeroInArgument
  | notPlain
  | tooManyScratchFiles
  /-- Any other refusal of the system, with its number and its words. -/
  | other (number : Nat) (words : String)
  deriving DecidableEq, Repr

namespace SystemError

/-- The number of a refusal, if the system itself refuses. -/
def number? : SystemError → Option Nat
  | .notFound => some 2
  | .argumentsTooLong => some 7
  | .notRunnable => some 8
  | .notPermitted => some 13
  | .alreadyThere => some 17
  | .notDirectory => some 20
  | .isDirectory => some 21
  | .nameTooLong => some 36
  | .tooManyLinks => some 40
  | .other number _ => some number
  | .zeroInPath | .zeroInArgument | .notPlain | .tooManyScratchFiles => none

def words : SystemError → String
  | .notFound => "No such file or directory"
  | .argumentsTooLong => "Argument list too long"
  | .notRunnable => "Exec format error"
  | .notPermitted => "Permission denied"
  | .alreadyThere => "File exists"
  | .notDirectory => "Not a directory"
  | .isDirectory => "Is a directory"
  | .nameTooLong => "File name too long"
  | .tooManyLinks => "Too many levels of symbolic links"
  | .zeroInPath => "file name contained an unexpected NUL byte"
  | .zeroInArgument => "nul byte found in provided data"
  | .notPlain => "the source path is neither a regular file nor a symlink to a regular file"
  | .tooManyScratchFiles => "too many temporary files exist"
  | .other _ words => words

def message (error : SystemError) : String :=
  match error.number? with
  | some number => error.words ++ " (os error " ++ toString number ++ ")"
  | none => error.words

/-- The message of a refusal that says which path was refused. -/
def messageAt (error : SystemError) (path : String) : String :=
  error.message ++ " at path " ++ Path.quoted path

def holdsZero (text : String) : Bool := text.toList.any (· = '\x00')

end SystemError

end YaraReport
