import ApiTypes.Literal
import ApiTypes.Decimal.Shortest

/-! # The text of a literal

Literals are printed as compact JSON: no spaces, members in their order, only quotes, backslashes
and control characters escaped.

Main definitions: `escapeChar`, `quoted`, `Literal.chars`, `Literal.toText`. -/

namespace ApiTypes.Literal

/-- A digit of base sixteen in lower case. -/
def hexDigit (n : Nat) : Char := Nat.digitChar n

/-- A character inside a quoted string. -/
def escapeChar (c : Char) : List Char :=
  if c = '"' then ['\\', '"']
  else if c = '\\' then ['\\', '\\']
  else if c = '\x08' then ['\\', 'b']
  else if c = '\x0c' then ['\\', 'f']
  else if c = '\n' then ['\\', 'n']
  else if c = '\r' then ['\\', 'r']
  else if c = '\t' then ['\\', 't']
  else if c.toNat < 0x20 then
    ['\\', 'u', '0', '0', hexDigit (c.toNat / 16), hexDigit (c.toNat % 16)]
  else [c]

/-- A string between double quotes. -/
def quoted (s : String) : List Char :=
  '"' :: s.toList.flatMap escapeChar ++ ['"']

/-- The digits of a whole number, with a minus where it is negative. -/
def integerChars (n : Int) : List Char :=
  (if n < 0 then ['-'] else []) ++ Decimal.digitsOf n.natAbs

mutual
/-- The characters of a literal. -/
def chars : Literal → List Char
  | .null => ['n', 'u', 'l', 'l']
  | .bool true => ['t', 'r', 'u', 'e']
  | .bool false => ['f', 'a', 'l', 's', 'e']
  | .integer n => integerChars n
  | .real x => x.text
  | .text s => quoted s
  | .list items => '[' :: listChars items ++ [']']
  | .object members => '{' :: memberChars members ++ ['}']

/-- The characters of items, with commas between them. -/
def listChars : List Literal → List Char
  | [] => []
  | [a] => chars a
  | a :: b :: rest => chars a ++ ',' :: listChars (b :: rest)

/-- The characters of members, with commas between them. -/
def memberChars : List (String × Literal) → List Char
  | [] => []
  | [(n, a)] => quoted n ++ ':' :: chars a
  | (n, a) :: m :: rest => quoted n ++ ':' :: chars a ++ ',' :: memberChars (m :: rest)
end

/-- The text of a literal. -/
def toText (v : Literal) : String := String.ofList v.chars

end ApiTypes.Literal
