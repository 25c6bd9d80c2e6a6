import ApiTypes.Data
import ApiTypes.Yaml.Node

/-! # The kinds of YAML scalars

What a scalar stands for.  A tag of the core schema decides the kind and refuses a text that does
not have it; an untagged plain scalar is null, a truth value, a whole number, another number or a
text, the first of these that its text can be; every other scalar is a text.  A tag of the
document's own that names nothing counts for none.

Main definitions: `isNull`, `boolean?`, `integer?`, `real?`, `plainData?`, `Scalar.data?`. -/

namespace ApiTypes.Yaml

open Decimal (Binary64)

/-! ### Null and truth values -/

/-- The spellings of null. -/
def isNull (s : List Char) : Bool :=
  s == ['~'] || s == "null".toList || s == "Null".toList || s == "NULL".toList

/-- The spellings of truth values. -/
def boolean? (s : List Char) : Option Bool :=
  if s == "true".toList || s == "True".toList || s == "TRUE".toList then some true
  else if s == "false".toList || s == "False".toList || s == "FALSE".toList then some false
  else none

/-! ### Whole numbers -/

/-- The value of a digit of base `radix`. -/
def digitValue? (radix : Nat) (c : Char) : Option Nat :=
  let n :=
    if '0' ≤ c ∧ c ≤ '9' then c.toNat - 48
    else if 'a' ≤ c ∧ c ≤ 'z' then c.toNat - 87
    else if 'A' ≤ c ∧ c ≤ 'Z' then c.toNat - 55
    else 36
  if n < radix then some n else none

/-- The number that one or more digits spell. -/
def number? (radix : Nat) (s : List Char) : Option Nat :=
  if s.isEmpty then none
  else (s.mapM (digitValue? radix)).map fun ds => ds.foldl (fun n d => n * radix + d) 0

/-- Does the text start with a sign? -/
def isSigned : List Char → Bool
  | c :: _ => c == '+' || c == '-'
  | [] => false

/-- The text without one sign in front. -/
def unsigned : List Char → List Char
  | c :: rest => if c == '+' || c == '-' then rest else c :: rest
  | [] => []

/-- Digits that start with a zero spell no number, unless the zero stands alone. -/
def hasLeadingZero (s : List Char) : Bool :=
  match unsigned s with
  | '0' :: d :: rest => (d :: rest).all Char.isDigit
  | _ => false

/-- A number without sign, in one of the four bases. -/
def magnitude? (s : List Char) : Option Nat :=
  match s with
  | '0' :: 'x' :: rest => number? 16 rest
  | '0' :: 'o' :: rest => number? 8 rest
  | '0' :: 'b' :: rest => number? 2 rest
  | _ => if hasLeadingZero s then none else number? 10 s

/-- A whole number with its sign; none where the text is none, or too great for 128 bits.  Beyond
64 bits a whole number has no data. -/
def integer? (s : List Char) : Option (Option Data) :=
  match s with
  | '-' :: rest =>
    (magnitude? rest).bind fun n =>
      if n ≤ Nat.pow 2 63 then some (some (.signed (-n)))
      else if n ≤ Nat.pow 2 127 then some none
      else none
  | _ =>
    let rest := match s with
      | '+' :: rest => rest
      | _ => s
    (magnitude? rest).bind fun n =>
      if n < Nat.pow 2 64 then some (some (.natural n))
      else if n < Nat.pow 2 128 then some none
      else none

/-! ### Other numbers -/

/-- A number with an optional fraction and an optional exponent, and at least one digit before the
exponent; none where its double is infinite. -/
def decimal? (negative : Bool) (s : List Char) : Option Binary64 :=
  let whole := s.takeWhile Char.isDigit
  let rest := s.dropWhile Char.isDigit
  let (fraction, rest) : List Char × List Char := match rest with
    | '.' :: rest => (rest.takeWhile Char.isDigit, rest.dropWhile Char.isDigit)
    | rest => ([], rest)
  let exponent : Option Int := match rest with
    | [] => some 0
    | e :: rest =>
      if e == 'e' || e == 'E' then
        (number? 10 (unsigned rest)).map fun n => if rest.head? == some '-' then -n else n
      else none
  let digits := whole ++ fraction
  match number? 10 digits, exponent with
  | some n, some e =>
    (Binary64.ofDecimal n digits.length (e - fraction.length)).map (·.withSign negative)
  | _, _ => none

/-- The spellings of infinity, without sign. -/
def isInfinity (s : List Char) : Bool :=
  s == ".inf".toList || s == ".Inf".toList || s == ".INF".toList

/-- The spellings of what is not a number. -/
def isNotNumber (s : List Char) : Bool :=
  s == ".nan".toList || s == ".NaN".toList || s == ".NAN".toList

/-- A number that is not whole; infinities and what is not a number have no value.  What is not a
number takes no sign. -/
def real? (s : List Char) : Option (Option Binary64) :=
  match s with
  | '+' :: rest =>
    if isSigned rest then none
    else if isInfinity rest then some none
    else (decimal? false rest).map some
  | '-' :: rest =>
    if isInfinity rest then some none else (decimal? true rest).map some
  | rest => if isInfinity rest || isNotNumber rest then some none else (decimal? false rest).map some

/-! ### Scalars -/

/-- What an untagged plain scalar stands for; nothing where it is a whole number of more than 64 but
not of more than 128 bits. -/
def plainData? (text : String) : Option Data :=
  let s := text.toList
  if s.isEmpty || isNull s then some .null
  else match boolean? s with
    | some b => some (.bool b)
    | none => match integer? s with
      | some d => d
      | none =>
        if hasLeadingZero s then some (.text text)
        else match real? s with
          | some x => some (.real x)
          | none => some (.text text)

/-- What a scalar stands for; nothing where it has a named tag of the document's own, or a tag that
its text does not bear out. -/
def Scalar.data? (s : Scalar) : Option Data :=
  let cs := s.text.toList
  match s.tag with
  | none | some (.own none) => if s.style = .plain then plainData? s.text else some (.text s.text)
  | some (.own (some _)) => none
  | some .boolean => (boolean? cs).map .bool
  | some .integer => (integer? cs).join
  | some .number => (real? cs).map .real
  | some .null => if isNull cs then some .null else none
  | some .other => some (.text s.text)

end ApiTypes.Yaml
