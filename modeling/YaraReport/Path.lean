/-
This file takes paths apart as text, without asking any file system. A path is
rooted or not and has names; repeated slashes, a slash at the end and single dots
do not count, except for a single dot at the very beginning. Two spellings with
the same parts are the same path.
-/

namespace YaraReport.Path

/-- The segments of a path between its slashes, empty ones included. -/
def segments (path : String) : List String :=
  (path.toList.splitOn '/').map String.ofList

def isRooted (path : String) : Bool := ['/'].isPrefixOf path.toList

structure Parts where
  rooted : Bool
  /-- The names in order. -/
  names : List String
  deriving DecidableEq, Repr

/-- The names among the segments of a path; a single dot is one only where it comes first. -/
def names : List String → List String
  | "." :: rest => "." :: rest.filter fun segment => segment ≠ "" ∧ segment ≠ "."
  | segments => segments.filter fun segment => segment ≠ "" ∧ segment ≠ "."

def parts (path : String) : Parts := ⟨isRooted path, names (segments path)⟩

def same (first second : String) : Bool := parts first = parts second

def fileName? (path : String) : Option String :=
  match (parts path).names.getLast? with
  | some "." | some ".." | none => none
  | some name => some name

/-- What stands after the last dot of a name and before it; nothing when there is no dot. -/
def splitLastDot? (name : List Char) : Option (List Char × List Char) :=
  if '.' ∈ name then
    some ((name.reverse.takeWhile (· ≠ '.')).reverse,
      ((name.reverse.dropWhile (· ≠ '.')).drop 1).reverse)
  else none

/-- The extension of the last name, which has at least one character before its dot. -/
def extension? (path : String) : Option String :=
  match fileName? path with
  | none => none
  | some name =>
    match splitLastDot? name.toList with
    | some (extension, _ :: _) => some (String.ofList extension)
    | _ => none

def join (directory name : String) : String :=
  if ['/'].isSuffixOf directory.toList then directory ++ name else directory ++ "/" ++ name

/-- A character as it stands in a path between quotes. -/
def quotedCharacter (character : Char) : List Char :=
  match character with
  | '"' => ['\\', '"']
  | '\\' => ['\\', '\\']
  | '\n' => ['\\', 'n']
  | '\r' => ['\\', 'r']
  | '\t' => ['\\', 't']
  | '\x00' => ['\\', '0']
  | character =>
    if character.toNat < 0x20 ∨ 0x7f ≤ character.toNat ∧ character.toNat < 0xa0 then
      ['\\', 'u', '\x7b'] ++ Nat.toDigits 16 character.toNat ++ ['\x7d']
    else [character]

/-- A path between quotes, as messages name it. -/
def quoted (path : String) : String :=
  String.ofList ('"' :: path.toList.flatMap quotedCharacter ++ ['"'])

/-- The names of an absolute spelling: those of the path without a leading dot. -/
def plainNames (path : String) : List String :=
  match names (segments path) with
  | "." :: rest => rest
  | names => names

/-- What an absolute spelling begins with: two slashes at the beginning of a path are kept, any
other number counts as one. -/
def base (directory path : String) : String :=
  if isRooted path then
    if ['/', '/'].isPrefixOf path.toList ∧ ¬ ['/', '/', '/'].isPrefixOf path.toList then "//"
    else "/"
  else directory

/-- A path spelled from the root, given the directory it is relative to. A slash at its end
stays. -/
def absolute (directory path : String) : String :=
  let spelled := (plainNames path).foldl join (base directory path)
  if ['/'].isSuffixOf path.toList ∧ ¬ ['/'].isSuffixOf spelled.toList then spelled ++ "/"
  else spelled

end YaraReport.Path
