/-
This file reads and writes numerals. Reading is exact for any number of digits:
a numeral denotes a natural number, and whether that fits a machine word is
asked afterwards. Digits are ASCII only.
-/

namespace YaraReport.Text

def decimalDigit? (character : Char) : Option Nat :=
  if '0' ≤ character && character ≤ '9' then some (character.toNat - '0'.toNat) else none

/-- The value of an ASCII hexadecimal digit, in either case. -/
def hexDigit? (character : Char) : Option Nat :=
  if '0' ≤ character && character ≤ '9' then some (character.toNat - '0'.toNat)
  else if 'a' ≤ character && character ≤ 'f' then some (character.toNat - 'a'.toNat + 10)
  else if 'A' ≤ character && character ≤ 'F' then some (character.toNat - 'A'.toNat + 10)
  else none

/-- The number that a run of digits denotes, the most significant one first. -/
def positional (base : Nat) (digits : List Nat) : Nat :=
  digits.foldl (fun value digit => value * base + digit) 0

/-- The number that a non-empty run of digits denotes, when all of it are digits. -/
def digitsValue? (base : Nat) (digit? : Char → Option Nat) (text : List Char) : Option Nat :=
  if text.isEmpty then none else (text.mapM digit?).map (positional base)

/-- The number that a non-empty run of decimal digits denotes. -/
def decimal? (text : List Char) : Option Nat := digitsValue? 10 decimalDigit? text

/-- The number that a non-empty run of hexadecimal digits denotes. -/
def hex? (text : List Char) : Option Nat := digitsValue? 16 hexDigit? text

/-- A numeral without sign: decimal digits, or hexadecimal digits after `0x` or `0X`. -/
def unsigned? : List Char → Option Nat
  | '0' :: 'x' :: digits => hex? digits
  | '0' :: 'X' :: digits => hex? digits
  | digits => decimal? digits

/-- A text without the minus sign before it, and whether it had one. -/
def splitSign : List Char → Bool × List Char
  | '-' :: digits => (true, digits)
  | digits => (false, digits)

def signed? : List Char → Option Int
  | '-' :: digits => (unsigned? digits).map fun value => -(value : Int)
  | digits => (unsigned? digits).map fun value => (value : Int)

/-- A decimal numeral with an optional plus sign before it. -/
def plusDecimal? : List Char → Option Nat
  | '+' :: digits => decimal? digits
  | digits => decimal? digits

def decimal (value : Nat) : List Char := Nat.toDigits 10 value

/-- The hexadecimal numeral of a natural number, in lower case. -/
def hex (value : Nat) : List Char := Nat.toDigits 16 value

end YaraReport.Text
