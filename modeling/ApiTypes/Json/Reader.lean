import ApiTypes.Json.Number

/-! # Reading JSON text

A reader of one part takes the characters in front and returns the part with what follows it, or
nothing where the characters do not start with such a part.

Main definitions: `codes`, `string`, `numeral`, `value`, `Json.ofText?`. -/

namespace ApiTypes.Json

/-- The four characters that JSON allows between its parts. -/
def isSpace (c : Char) : Bool :=
  c == ' ' || c == '\t' || c == '\n' || c == '\r'

/-- The characters after white space. -/
def skipSpace (s : List Char) : List Char := s.dropWhile isSpace

/-- The value of a digit of base sixteen. -/
def hexValue? (c : Char) : Option Nat :=
  if '0' ≤ c ∧ c ≤ '9' then some (c.toNat - 48)
  else if 'a' ≤ c ∧ c ≤ 'f' then some (c.toNat - 87)
  else if 'A' ≤ c ∧ c ≤ 'F' then some (c.toNat - 55)
  else none

/-- The code of four digits of base sixteen. -/
def hexFour? (a b c d : Char) : Option Nat := do
  let a ← hexValue? a
  let b ← hexValue? b
  let c ← hexValue? c
  let d ← hexValue? d
  pure (((a * 16 + b) * 16 + c) * 16 + d)

/-- The code of a character that is escaped by a backslash alone. -/
def escaped? : Char → Option Nat
  | '"' => some 0x22
  | '\\' => some 0x5C
  | '/' => some 0x2F
  | 'b' => some 0x08
  | 'f' => some 0x0C
  | 'n' => some 0x0A
  | 'r' => some 0x0D
  | 't' => some 0x09
  | _ => none

/-- The codes up to the closing quote; a code is a character or half a surrogate pair. -/
def codes : List Char → Option (List Nat × List Char)
  | [] => none
  | '"' :: rest => some ([], rest)
  | '\\' :: 'u' :: a :: b :: c :: d :: rest => do
    let n ← hexFour? a b c d
    let (ns, rest) ← codes rest
    pure (n :: ns, rest)
  | '\\' :: e :: rest => do
    let n ← escaped? e
    let (ns, rest) ← codes rest
    pure (n :: ns, rest)
  | c :: rest =>
    if c.toNat < 0x20 || c == '\\' then none
    else do
      let (ns, rest) ← codes rest
      pure (c.toNat :: ns, rest)

/-- The first half of a surrogate pair. -/
def isHighHalf (n : Nat) : Bool := decide (0xD800 ≤ n) && decide (n ≤ 0xDBFF)

/-- The second half of a surrogate pair. -/
def isLowHalf (n : Nat) : Bool := decide (0xDC00 ≤ n) && decide (n ≤ 0xDFFF)

/-- The characters of codes, each pair of halves joined; none where a half stands alone. -/
def joinHalves : List Nat → Option (List Char)
  | [] => some []
  | [n] => if isHighHalf n || isLowHalf n then none else some [Char.ofNat n]
  | n :: m :: rest =>
    if isHighHalf n then
      if isLowHalf m then
        (joinHalves rest).map (Char.ofNat (0x10000 + (n - 0xD800) * 0x400 + (m - 0xDC00)) :: ·)
      else none
    else if isLowHalf n then none
    else (joinHalves (m :: rest)).map (Char.ofNat n :: ·)

/-- A string after its opening quote; no text where half a surrogate pair stands alone. -/
def string (s : List Char) : Option (Option String × List Char) :=
  (codes s).map fun (ns, rest) => ((joinHalves ns).map String.ofList, rest)

/-- The digits in front. -/
def digits (s : List Char) : List Nat × List Char :=
  ((s.takeWhile Char.isDigit).map fun c => c.toNat - 48, s.dropWhile Char.isDigit)

/-- The number that decimal digits spell. -/
def ofDigitList (ds : List Nat) : Nat := ds.foldl (fun n d => n * 10 + d) 0

/-- The whole part of a number: a zero, or digits that do not start with one. -/
def wholePart (s : List Char) : Option (List Nat × List Char) :=
  match digits s with
  | ([], _) => none
  | (0 :: _ :: _, _) => none
  | part => some part

/-- The fraction, where a point follows. -/
def fractionPart : List Char → Option (Option (List Nat) × List Char)
  | '.' :: rest =>
    match digits rest with
    | ([], _) => none
    | (ds, rest) => some (some ds, rest)
  | s => some (none, s)

/-- The exponent, where its letter follows. -/
def exponentPart : List Char → Option (Option Int × List Char)
  | [] => some (none, [])
  | c :: rest =>
    if c = 'e' ∨ c = 'E' then
      let (negative, rest) : Bool × List Char := match rest with
        | '+' :: rest => (false, rest)
        | '-' :: rest => (true, rest)
        | rest => (false, rest)
      match digits rest with
      | ([], _) => none
      | (ds, rest) =>
        let n : Int := ofDigitList ds
        some (some (if negative then -n else n), rest)
    else some (none, c :: rest)

/-- A number after its sign. -/
def numeral (negative : Bool) (s : List Char) : Option (Json × List Char) := do
  let (whole, rest) ← wholePart s
  let (fraction, rest) ← fractionPart rest
  let (exponent, rest) ← exponentPart rest
  pure (((Numeral.ofDigits negative whole fraction exponent).map .number).getD .unreadable, rest)

/-- The characters after the word, where they start with it. -/
def word (w : List Char) (v : Json) (s : List Char) : Option (Json × List Char) :=
  if w.isPrefixOf s then some (v, s.drop w.length) else none

mutual
/-- A value, with white space before it. -/
def value : Nat → List Char → Option (Json × List Char)
  | 0, _ => none
  | fuel + 1, s =>
    match skipSpace s with
    | 'n' :: rest => word ['u', 'l', 'l'] .null rest
    | 't' :: rest => word ['r', 'u', 'e'] (.bool true) rest
    | 'f' :: rest => word ['a', 'l', 's', 'e'] (.bool false) rest
    | '"' :: rest => (string rest).map fun (t, rest) => ((t.map .text).getD .unreadable, rest)
    | '[' :: rest =>
      match skipSpace rest with
      | ']' :: rest => some (.list [], rest)
      | rest => (items fuel rest).map fun (vs, rest) => (.list vs, rest)
    | '{' :: rest =>
      match skipSpace rest with
      | '}' :: rest => some (.object [], rest)
      | rest => (members fuel rest).map fun (ms, rest) => (.object ms, rest)
    | '-' :: rest => numeral true rest
    | rest => numeral false rest

/-- One or more values up to the closing bracket. -/
def items : Nat → List Char → Option (List Json × List Char)
  | 0, _ => none
  | fuel + 1, s => do
    let (v, rest) ← value fuel s
    match skipSpace rest with
    | ',' :: rest => do
      let (vs, rest) ← items fuel rest
      pure (v :: vs, rest)
    | ']' :: rest => some ([v], rest)
    | _ => none

/-- One or more members up to the closing brace. -/
def members : Nat → List Char → Option (List (Option String × Json) × List Char)
  | 0, _ => none
  | fuel + 1, s =>
    match skipSpace s with
    | '"' :: rest => do
      let (name, rest) ← string rest
      match skipSpace rest with
      | ':' :: rest => do
        let (v, rest) ← value fuel rest
        match skipSpace rest with
        | ',' :: rest => do
          let (ms, rest) ← members fuel rest
          pure ((name, v) :: ms, rest)
        | '}' :: rest => some ([(name, v)], rest)
        | _ => none
      | _ => none
    | _ => none
end

/-- The value that is the whole of a text.  Every step reads a character or opens a part whose first
character is read next, so twice the length bounds the steps. -/
def ofChars? (s : List Char) : Option Json := do
  let (v, rest) ← value (2 * s.length + 2) s
  if (skipSpace rest).isEmpty then some v else none

/-- The value that is the whole of a text. -/
def ofText? (s : String) : Option Json := ofChars? s.toList

end ApiTypes.Json
