/-
This file says which characters are blank and removes blanks around a text. A
character is blank when it has the Unicode property White_Space; control
characters such as U+001C and joiners such as U+200B are not blank. The readers
of both tools skip blanks between the parts of a line and ignore a line that
holds nothing else.
-/

namespace YaraReport.Text

/-- The code points with the Unicode property White_Space, as closed ranges in order. -/
def blankRanges : List (Nat × Nat) :=
  [(0x09, 0x0D), (0x20, 0x20), (0x85, 0x85), (0xA0, 0xA0), (0x1680, 0x1680), (0x2000, 0x200A),
    (0x2028, 0x2029), (0x202F, 0x202F), (0x205F, 0x205F), (0x3000, 0x3000)]

/-- Whether a character has the Unicode property White_Space. -/
def isBlank (character : Char) : Bool :=
  blankRanges.any fun range => range.1 ≤ character.toNat && character.toNat ≤ range.2

/-- A text without the blanks before its first and after its last visible character. -/
def trim (text : List Char) : List Char :=
  ((text.dropWhile isBlank).reverse.dropWhile isBlank).reverse

def trimmed (text : String) : String :=
  String.ofList (trim text.toList)

def isBlankLine (line : String) : Bool :=
  line.toList.all isBlank

def hasInside (part : List Char) : List Char → Bool
  | [] => part.isEmpty
  | character :: rest => part.isPrefixOf (character :: rest) || hasInside part rest

end YaraReport.Text
