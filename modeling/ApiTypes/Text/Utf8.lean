/-! # UTF-8

The characters that bytes encode.  Each longest start of a character that is not completed, and each
byte that starts none, encodes no character.

Main definitions: `following`, `decodeChar`, `parts`, `text?`. -/

namespace ApiTypes

namespace Utf8

/-- The ranges of the bytes that follow a first byte, and the part of the code it gives; none where
no character starts with it. -/
def following (b : Nat) : Option (Nat × List (Nat × Nat)) :=
  if b < 0x80 then some (b, [])
  else if 0xC2 ≤ b ∧ b ≤ 0xDF then some (b - 0xC0, [(0x80, 0xBF)])
  else if b = 0xE0 then some (0, [(0xA0, 0xBF), (0x80, 0xBF)])
  else if b = 0xED then some (0xD, [(0x80, 0x9F), (0x80, 0xBF)])
  else if 0xE1 ≤ b ∧ b ≤ 0xEF then some (b - 0xE0, [(0x80, 0xBF), (0x80, 0xBF)])
  else if b = 0xF0 then some (0, [(0x90, 0xBF), (0x80, 0xBF), (0x80, 0xBF)])
  else if b = 0xF4 then some (4, [(0x80, 0x8F), (0x80, 0xBF), (0x80, 0xBF)])
  else if 0xF1 ≤ b ∧ b ≤ 0xF3 then some (b - 0xF0, [(0x80, 0xBF), (0x80, 0xBF), (0x80, 0xBF)])
  else none

/-- The rest of a character, and the bytes after it; none where it is not completed. -/
def decodeRest (code : Nat) : List (Nat × Nat) → List Nat → Option Char × List Nat
  | [], bytes => (some (Char.ofNat code), bytes)
  | (low, high) :: ranges, b :: bytes =>
    if low ≤ b ∧ b ≤ high then decodeRest (code * 0x40 + b % 0x40) ranges bytes
    else (none, b :: bytes)
  | _ :: _, [] => (none, [])

/-- The first character, and the bytes after it; none where there is no whole one. -/
def decodeChar (b : Nat) (bytes : List Nat) : Option Char × List Nat :=
  match following b with
  | some (code, ranges) => decodeRest code ranges bytes
  | none => (none, bytes)

/-- The characters of bytes, read one after the other in at most so many steps. -/
def decode : Nat → List Nat → List (Option Char)
  | 0, _ => []
  | _, [] => []
  | fuel + 1, b :: bytes =>
    let (c, rest) := decodeChar b bytes
    c :: decode fuel rest

/-- The characters of bytes, none for each part that encodes none. -/
def parts (bytes : List UInt8) : List (Option Char) :=
  decode bytes.length (bytes.map UInt8.toNat)

/-- The text that bytes encode, where they encode one. -/
def text? (bytes : List UInt8) : Option String :=
  ((parts bytes).mapM id).map String.ofList

end Utf8

end ApiTypes
