/-
This file says what a settings file in TOML holds: keys with values. Whoever reads
such files may be given as a `Reader`. The reader of this file reads flat files,
that is, keys whose values are strings, integers or truth values; it refuses all
other files, which hold nothing that is a setting.

Every rule that reads a part of a line returns what follows that part, so a line
is read from left to right without going back. A string over several lines is
carried from line to line.
-/

import YaraReport.Text.Lines
import YaraReport.Text.Numeral

namespace YaraReport.Toml

inductive Value where
  | text (value : String)
  | integer (value : Int)
  | boolean (value : Bool)
  /-- A value of any other kind, such as a date or a list. -/
  | other
  deriving DecidableEq, Repr

abbrev Entry := String × Value

/-- Someone who reads settings files. -/
structure Reader where
  /-- The keys of a text with their values, or nothing where the text is not well formed. -/
  entries? : String → Option (List Entry)
  /-- What is said of a text that is not well formed or does not hold what is asked for. -/
  complaint : String → String

abbrev Parsed (Part : Type) := Option (Part × List Char)

/-! ### Blanks and comments -/

def isBlank (character : Char) : Bool := character = ' ' || character = '\t'

def skipBlanks (text : List Char) : List Char := text.dropWhile isBlank

/-- Whether a character may stand in a comment or a string. -/
def isPrintable (character : Char) : Bool :=
  character = '\t' || (0x20 ≤ character.toNat && character ≠ '\x7f')

/-- Whether a line ends here, perhaps after blanks and a comment. -/
def isLineEnd (text : List Char) : Bool :=
  match skipBlanks text with
  | [] => true
  | '#' :: comment => comment.all isPrintable
  | _ => false

/-! ### Strings -/

/-- The character with the code point that hexadecimal digits denote. -/
def codePoint? (digits : List Char) : Option Char :=
  match Text.hex? digits with
  | some value => if value.isValidChar then some (Char.ofNat value) else none
  | none => none

/-- The character that an escape stands for, after its backslash, and the length of the
escape. -/
def escape? : List Char → Option (Char × Nat)
  | 'b' :: _ => some ('\x08', 1)
  | 't' :: _ => some ('\t', 1)
  | 'n' :: _ => some ('\n', 1)
  | 'f' :: _ => some ('\x0c', 1)
  | 'r' :: _ => some ('\r', 1)
  | '"' :: _ => some ('"', 1)
  | '\\' :: _ => some ('\\', 1)
  | 'u' :: rest =>
    if rest.length < 4 then none else (codePoint? (rest.take 4)).map fun read => (read, 5)
  | 'U' :: rest =>
    if rest.length < 8 then none else (codePoint? (rest.take 8)).map fun read => (read, 9)
  | _ => none

/-- A string between double quotes, after the opening one, while `skipped` characters of an
escape are still to be passed over. -/
def basicString (skipped : Nat) : List Char → Parsed (List Char)
  | [] => none
  | character :: rest =>
    match skipped with
    | more + 1 => basicString more rest
    | 0 =>
      if character = '"' then some ([], rest)
      else if character = '\\' then
        match escape? rest with
        | some (meant, length) =>
          (basicString length rest).map fun parsed => (meant :: parsed.1, parsed.2)
        | none => none
      else if isPrintable character then
        (basicString 0 rest).map fun parsed => (character :: parsed.1, parsed.2)
      else none

/-- A string between single quotes, after the opening one. -/
def literalString : List Char → Parsed (List Char)
  | [] => none
  | '\'' :: rest => some ([], rest)
  | character :: rest =>
    if isPrintable character then
      (literalString rest).map fun parsed => (character :: parsed.1, parsed.2)
    else none

/-! ### Keys -/

/-- Whether a character may stand in a key without quotes. -/
def isKeyCharacter (character : Char) : Bool :=
  character.isAlphanum || character = '_' || character = '-'

def key : List Char → Parsed (List Char)
  | '"' :: rest => basicString 0 rest
  | '\'' :: rest => literalString rest
  | text =>
    match text.takeWhile isKeyCharacter with
    | [] => none
    | word => some (word, text.dropWhile isKeyCharacter)

/-! ### Integers -/

def octalDigit? (character : Char) : Option Nat :=
  (Text.decimalDigit? character).filter (· < 8)

def binaryDigit? (character : Char) : Option Nat :=
  (Text.decimalDigit? character).filter (· < 2)

def joined? (digits : List Char) : Option (List Char) :=
  let groups := digits.splitOn '_'
  if groups.any List.isEmpty then none else some groups.flatten

def inBase? (base : Nat) (digit? : Char → Option Nat) (digits : List Char) : Option Nat :=
  (joined? digits).bind (Text.digitsValue? base digit?)

/-- A decimal number, which does not begin with a zero that could be left out. -/
def decimal? (digits : List Char) : Option Nat :=
  match digits with
  | '0' :: _ :: _ => none
  | digits => inBase? 10 Text.decimalDigit? digits

def integer? : List Char → Option Int
  | '0' :: 'x' :: digits => (inBase? 16 Text.hexDigit? digits).map Int.ofNat
  | '0' :: 'o' :: digits => (inBase? 8 octalDigit? digits).map Int.ofNat
  | '0' :: 'b' :: digits => (inBase? 2 binaryDigit? digits).map Int.ofNat
  | '-' :: digits => (decimal? digits).map fun value => -Int.ofNat value
  | '+' :: digits => (decimal? digits).map Int.ofNat
  | digits => (decimal? digits).map Int.ofNat

def fits (value : Int) : Bool := -0x8000000000000000 ≤ value && value < 0x8000000000000000

/-! ### Values -/

def isWordCharacter (character : Char) : Bool := !isBlank character && character ≠ '#'

def wordValue? (word : List Char) : Option Value :=
  match String.ofList word with
  | "true" => some (.boolean true)
  | "false" => some (.boolean false)
  | _ => ((integer? word).filter fits).map .integer

def value : List Char → Parsed Value
  | '"' :: rest => (basicString 0 rest).map fun parsed => (.text (String.ofList parsed.1), parsed.2)
  | '\'' :: rest => (literalString rest).map fun parsed => (.text (String.ofList parsed.1), parsed.2)
  | text =>
    (wordValue? (text.takeWhile isWordCharacter)).map fun value =>
      (value, text.dropWhile isWordCharacter)

/-! ### Strings over several lines -/

/-- A string over several lines that has not ended yet, as the value of a key. -/
structure Pending where
  name : String
  quote : Char
  /-- The characters so far, the latest first. -/
  read : List Char
  /-- Whether blanks and line ends do not count, as a backslash stood at the end of a line. -/
  passing : Bool

/-- What a line comes to. -/
inductive Part where
  | whole (entry : Entry)
  | unfinished (pending : Pending)

/-- The quote of a string over several lines that begins here, and what follows its beginning. -/
def opened? : List Char → Option (Char × List Char)
  | '"' :: '"' :: '"' :: rest => some ('"', rest)
  | '\'' :: '\'' :: '\'' :: rest => some ('\'', rest)
  | _ => none

namespace Pending

def add (pending : Pending) (characters : List Char) : Pending :=
  { pending with read := characters ++ pending.read }

/-- Reads on up to the end of a line, while `skipped` characters of an escape are still to be
passed over. If the string ends in this line, what follows it is left. -/
def scan (pending : Pending) (skipped : Nat) : List Char → Option (Pending × Option (List Char))
  | [] => some (pending.add ['\n'], none)
  | character :: rest =>
    match skipped with
    | more + 1 => scan pending more rest
    | 0 =>
      let further := (rest.takeWhile (· = pending.quote)).length
      if character = pending.quote ∧ 2 ≤ further then
        -- Up to two quotes before the three that end the string belong to it.
        let own := min (further - 2) 2
        some (pending.add (List.replicate own character), some (rest.drop (own + 2)))
      else if character = '\\' ∧ pending.quote = '"' then
        if (skipBlanks rest).isEmpty then some ({ pending with passing := true }, none)
        else
          match escape? rest with
          | some (meant, length) => scan (pending.add [meant]) length rest
          | none => none
      else if isPrintable character then scan (pending.add [character]) 0 rest
      else none

def ended (pending : Pending) : Entry := (pending.name, .text (String.ofList pending.read.reverse))

def readOn (pending : Pending) (line : List Char) : Option Part :=
  let text := if pending.passing then skipBlanks line else line
  if pending.passing && text.isEmpty then some (.unfinished pending)
  else
    match scan { pending with passing := false } 0 text with
    | none => none
    | some (pending, none) => some (.unfinished pending)
    | some (pending, some rest) => if isLineEnd rest then some (.whole pending.ended) else none

end Pending

/-! ### Lines -/

def entry? (line : List Char) : Option Part :=
  match key line with
  | none => none
  | some (name, rest) =>
    match skipBlanks rest with
    | '=' :: rest =>
      match opened? (skipBlanks rest) with
      -- A line end directly after the beginning does not count.
      | some (quote, []) => some (.unfinished ⟨String.ofList name, quote, [], false⟩)
      | some (quote, rest) => Pending.readOn ⟨String.ofList name, quote, [], false⟩ rest
      | none =>
        match value (skipBlanks rest) with
        | some (value, rest) =>
          if isLineEnd rest then some (.whole (String.ofList name, value)) else none
        | none => none
    | _ => none

/-- Reads lines, the first of which may be inside a string. -/
def entries? : Option Pending → List (List Char) → Option (List Entry)
  | none, [] => some []
  | some _, [] => none
  | pending, line :: lines =>
    if pending.isNone && isLineEnd line then entries? none lines
    else
      let part :=
        match pending with
        | some pending => pending.readOn line
        | none => entry? (skipBlanks line)
      match part with
      | none => none
      | some (.unfinished pending) => entries? (some pending) lines
      | some (.whole entry) => (entries? none lines).map fun entries => entry :: entries

def withoutMark : List Char → List Char
  | '\uFEFF' :: rest => rest
  | text => text

def hasDistinctKeys : List Entry → Bool
  | [] => true
  | entry :: rest => rest.all (fun other => other.1 ≠ entry.1) && hasDistinctKeys rest

def read? (text : String) : Option (List Entry) :=
  match entries? none (Text.splitLines '\n' '\r' (withoutMark text.toList)) with
  | some entries => if hasDistinctKeys entries then some entries else none
  | none => none

def reader : Reader := ⟨read?, fun _ => "TOML parse error"⟩

end YaraReport.Toml
