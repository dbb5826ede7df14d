/-
This file decodes bytes as UTF-8. The decoder is a machine that takes one byte
at a time: between characters it looks at the lead byte, and inside a character
it knows how many bytes are owed and in which range the next one must lie. A
byte outside that range ends the broken character there and is then read as a
lead byte itself, so every longest broken beginning of a character gives exactly
one U+FFFD. Since each byte is read with the state the bytes before it left,
decoding in parts is decoding the whole wherever the state is between
characters.
-/

namespace YaraReport.Text.Utf8

/-- A character of which some bytes are still owed. -/
structure Unfinished where
  /-- The number of bytes owed. -/
  owed : Nat
  /-- The least value of the next byte. -/
  low : UInt8
  /-- The greatest value of the next byte. -/
  high : UInt8
  bits : Nat
  deriving DecidableEq, Repr

/-- Where the machine stands: between characters or inside one. -/
abbrev State := Option Unfinished

/-- What one byte yields: decoded characters, `none` for a broken one. -/
abbrev Yield := List (Option Char)

def lead (byte : UInt8) : State × Yield :=
  if byte ≤ 0x7F then (none, [some (Char.ofNat byte.toNat)])
  else if byte < 0xC2 then (none, [none])
  else if byte ≤ 0xDF then (some ⟨1, 0x80, 0xBF, byte.toNat - 0xC0⟩, [])
  else if byte = 0xE0 then (some ⟨2, 0xA0, 0xBF, 0⟩, [])
  else if byte = 0xED then (some ⟨2, 0x80, 0x9F, 0xD⟩, [])
  else if byte ≤ 0xEF then (some ⟨2, 0x80, 0xBF, byte.toNat - 0xE0⟩, [])
  else if byte = 0xF0 then (some ⟨3, 0x90, 0xBF, 0⟩, [])
  else if byte ≤ 0xF3 then (some ⟨3, 0x80, 0xBF, byte.toNat - 0xF0⟩, [])
  else if byte = 0xF4 then (some ⟨3, 0x80, 0x8F, 4⟩, [])
  else (none, [none])

def step (state : State) (byte : UInt8) : State × Yield :=
  match state with
  | none => lead byte
  | some unfinished =>
    if unfinished.low ≤ byte && byte ≤ unfinished.high then
      let bits := unfinished.bits * 64 + (byte.toNat - 0x80)
      if unfinished.owed ≤ 1 then (none, [some (Char.ofNat bits)])
      else (some ⟨unfinished.owed - 1, 0x80, 0xBF, bits⟩, [])
    else ((lead byte).1, none :: (lead byte).2)

def flush : State → Yield
  | none => []
  | some _ => [none]

/-- The characters of a byte sequence, read from a state. -/
def decodeFrom (state : State) : List UInt8 → Yield
  | [] => flush state
  | byte :: rest => (step state byte).2 ++ decodeFrom (step state byte).1 rest

def replacement : Char := '\uFFFD'

/-- The text of a byte sequence, with U+FFFD for every broken character. -/
def decodeLossy (bytes : List UInt8) : List Char :=
  (decodeFrom none bytes).map (·.getD replacement)

/-- The text of a byte sequence that holds no broken character. -/
def decode? (bytes : List UInt8) : Option (List Char) :=
  (decodeFrom none bytes).mapM id

/-- The text of a byte sequence as a string, broken characters replaced. -/
def toStringLossy (bytes : List UInt8) : String :=
  String.ofList (decodeLossy bytes)

end YaraReport.Text.Utf8
