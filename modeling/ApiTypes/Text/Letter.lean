import ApiTypes.Text.LetterTable
import ApiTypes.Text.CaseTable

/-! # Letters, digits and case

Character classes and case mappings over all of Unicode; ASCII is answered without the tables.
A case mapping may give several characters (`ß` becomes `SS`).

Main definitions: `isAlphanumeric`, `isLower`, `isUpper`, `upper`, `lower`, `capitalize`. -/

namespace ApiTypes.Text

/-- A letter or a digit of any script. -/
def isAlphanumeric (c : Char) : Bool :=
  if c.toNat < 0x80 then c.isAlphanum else anyHas alphanumericRuns c.toNat

/-- A lower case character of any script. -/
def isLower (c : Char) : Bool :=
  if c.toNat < 0x80 then c.isLower else anyHas lowerCaseRuns c.toNat

/-- An upper case character of any script. -/
def isUpper (c : Char) : Bool :=
  if c.toNat < 0x80 then c.isUpper else anyHas upperCaseRuns c.toNat

/-- The other case of a character beyond ASCII: its expansion, else its shift, else itself. -/
def otherCase (expansions : List (Nat × List Nat)) (shifts : List Shift) (c : Char) : List Char :=
  match expansions.lookup c.toNat with
  | some codes => codes.map Char.ofNat
  | none =>
    match shifted? shifts c.toNat with
    | some n => [Char.ofNat n]
    | none => [c]

/-- The upper case of a character. -/
def upper (c : Char) : List Char :=
  if c.toNat < 0x80 then [c.toUpper] else otherCase upperExpansions upperShifts c

/-- The lower case of a character, whatever stands beside it. -/
def lower (c : Char) : List Char :=
  if c.toNat < 0x80 then [c.toLower] else otherCase lowerExpansions lowerShifts c

/-- The text with its first character in upper case and the rest as it is. -/
def capitalize : List Char → List Char
  | [] => []
  | c :: rest => upper c ++ rest

end ApiTypes.Text
