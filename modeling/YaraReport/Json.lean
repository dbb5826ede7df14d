/-
This file writes JSON. A layout says what stands between the parts of a value:
the compact one puts nothing there, the indented one puts every item and field
on a line of its own and indents it by two spaces a level. Empty lists and
records are written without a break in every layout.
-/

namespace YaraReport

/-- A JSON value. The fields of a record are in the order they are written. -/
inductive Json where
  | null
  | boolean (value : Bool)
  | integer (value : Int)
  | text (value : String)
  | list (items : List Json)
  | record (fields : List (String × Json))

namespace Json

/-! ### Strings -/

def hexDigit (value : Nat) : Char := Nat.digitChar value

/-- The characters that a character is written as between quotes. -/
def escape (character : Char) : List Char :=
  match character with
  | '"' => ['\\', '"']
  | '\\' => ['\\', '\\']
  | '\x08' => ['\\', 'b']
  | '\x0c' => ['\\', 'f']
  | '\n' => ['\\', 'n']
  | '\r' => ['\\', 'r']
  | '\t' => ['\\', 't']
  | _ =>
    if character.toNat < 0x20 then
      ['\\', 'u', '0', '0', hexDigit (character.toNat / 16), hexDigit (character.toNat % 16)]
    else [character]

def quoted (text : String) : List Char :=
  '"' :: (text.toList.flatMap escape ++ ['"'])

def numeral (value : Int) : List Char :=
  match value with
  | .ofNat magnitude => Nat.toDigits 10 magnitude
  | .negSucc magnitude => '-' :: Nat.toDigits 10 (magnitude + 1)

/-! ### Layout -/

/-- Whether parts stand on lines of their own. -/
inductive Layout where
  | compact
  | indented
  deriving DecidableEq, Repr

def Layout.gap : Layout → Nat → List Char
  | .compact, _ => []
  | .indented, depth => '\n' :: List.replicate (2 * depth) ' '

/-- What stands between the name of a field and its value. -/
def Layout.colon : Layout → List Char
  | .compact => [':']
  | .indented => [':', ' ']

mutual

def write (layout : Layout) (depth : Nat) : Json → List Char
  | .null => ['n', 'u', 'l', 'l']
  | .boolean true => ['t', 'r', 'u', 'e']
  | .boolean false => ['f', 'a', 'l', 's', 'e']
  | .integer value => numeral value
  | .text value => quoted value
  | .list [] => ['[', ']']
  | .list (first :: rest) =>
    '[' :: (layout.gap (depth + 1) ++ write layout (depth + 1) first ++
      writeItems layout depth rest ++ layout.gap depth ++ [']'])
  | .record [] => ['\x7b', '\x7d']
  | .record ((name, value) :: rest) =>
    '\x7b' :: (layout.gap (depth + 1) ++ quoted name ++ layout.colon ++
      write layout (depth + 1) value ++ writeFields layout depth rest ++ layout.gap depth ++
      ['\x7d'])

def writeItems (layout : Layout) (depth : Nat) : List Json → List Char
  | [] => []
  | item :: rest =>
    ',' :: (layout.gap (depth + 1) ++ write layout (depth + 1) item ++
      writeItems layout depth rest)

def writeFields (layout : Layout) (depth : Nat) : List (String × Json) → List Char
  | [] => []
  | (name, value) :: rest =>
    ',' :: (layout.gap (depth + 1) ++ quoted name ++ layout.colon ++
      write layout (depth + 1) value ++ writeFields layout depth rest)

end

def compact (value : Json) : String := String.ofList (write .compact 0 value)

def indented (value : Json) : String := String.ofList (write .indented 0 value)

/-! ### Values -/

def texts (values : List String) : Json := .list (values.map .text)

def optional {Value : Type} (json : Value → Json) : Option Value → Json
  | some value => json value
  | none => .null

end Json

end YaraReport
