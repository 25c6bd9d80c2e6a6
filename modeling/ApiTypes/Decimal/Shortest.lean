import ApiTypes.Decimal.Binary64

/-! # Shortest decimals

The fewest decimal digits that read back as a given double, the nearest such decimal where there are
several, and its text: always with a fraction or an exponent, positional from `10 ^ -5` up to but
not including `10 ^ 16`.

Main definitions: `Spelling`, `readsBack`, `shortest`, `Binary64.text`. -/

namespace ApiTypes.Decimal

/-- The number `digits · 10 ^ exponent`. -/
structure Spelling where
  digits : Nat
  exponent : Int
  deriving DecidableEq, Repr

/-- Both sides of a comparison of `d · 10 ^ k` with `x · 2 ^ e`, over a common denominator. -/
def sides (d : Nat) (k : Int) (x : Nat) (e : Int) : Nat × Nat :=
  (d * Nat.pow 10 k.toNat * Nat.pow 2 (-e).toNat, x * Nat.pow 2 e.toNat * Nat.pow 10 (-k).toNat)

/-- Does the decimal round to the positive double `m · 2 ^ q`?  The interval that does so reaches
half way to either neighbour, the lower one being nearer below a power of two; its ends belong to it
where the significand is even. -/
def readsBack (m : Nat) (q : Int) (d : Spelling) : Bool :=
  let below := if m = Nat.pow 2 52 ∧ q > Binary64.minExponent then 4 * m - 1 else 4 * m - 2
  let (a, low) := sides d.digits d.exponent below (q - 2)
  let (b, high) := sides d.digits d.exponent (4 * m + 2) (q - 2)
  if m % 2 = 0 then low ≤ a && b ≤ high else low < a && b < high

/-- The greatest `k` with `10 ^ k ≤ m · 2 ^ q`. -/
def floorLog10 (m : Nat) (q : Int) : Int :=
  let guess := Int.fdiv (((m.log2 : Int) + q) * 30103) 100000
  let (a, b) := sides 1 (guess + 1) m q
  if a ≤ b then guess + 1
  else
    let (a, b) := sides 1 guess m q
    if a ≤ b then guess else guess - 1

/-- The decimal on the grid of `10 ^ k` that reads back as `m · 2 ^ q`, the nearer of the two
neighbours where both do, the even one where they are equally near. -/
def onGrid (m : Nat) (q : Int) (k : Int) : Option Spelling :=
  let (unit, value) := sides 1 k m q
  let d := value / unit
  let r := value % unit
  let low : Spelling := ⟨d, k⟩
  let high : Spelling := ⟨d + 1, k⟩
  match readsBack m q low && d != 0, readsBack m q high with
  | true, true =>
    if 2 * r < unit then some low
    else if 2 * r > unit then some high
    else if d % 2 = 0 then some low else some high
  | true, false => some low
  | false, true => some high
  | false, false => none

/-- The first grid with a decimal that reads back, from `10 ^ k` on to finer ones. -/
def firstGrid (m : Nat) (q : Int) : Nat → Int → Spelling
  | 0, k => (onGrid m q k).getD ⟨0, 0⟩
  | n + 1, k => (onGrid m q k).getD (firstGrid m q n (k - 1))

/-- The shortest decimal that reads back as the positive double `m · 2 ^ q`.  The first grid has the
next power of ten only; seventeen digits always suffice. -/
def shortest (m : Nat) (q : Int) : Spelling :=
  firstGrid m q 17 (floorLog10 m q + 1)

/-- The decimal digits of a number. -/
def digitsOf (n : Nat) : List Char := Nat.toDigits 10 n

/-- The text of a whole exponent, with its sign. -/
def exponentText (e : Int) : List Char :=
  (if e < 0 then '-' else '+') :: digitsOf e.natAbs

/-- The text of a positive decimal: `point` is the place of the decimal point relative to the first
digit. -/
def Spelling.text (d : Spelling) : List Char :=
  let ds := digitsOf d.digits
  let point : Int := ds.length + d.exponent
  if 0 ≤ d.exponent ∧ point ≤ 16 then
    ds ++ List.replicate d.exponent.toNat '0' ++ ['.', '0']
  else if 0 < point ∧ point ≤ 16 then
    ds.take point.toNat ++ '.' :: ds.drop point.toNat
  else if -5 < point ∧ point ≤ 0 then
    '0' :: '.' :: List.replicate (-point).toNat '0' ++ ds
  else
    match ds with
    | [] => []
    | [c] => c :: 'e' :: exponentText (point - 1)
    | c :: rest => c :: '.' :: rest ++ 'e' :: exponentText (point - 1)

/-- The text of a double. -/
def Binary64.text (x : Binary64) : List Char :=
  (if x.negative then ['-'] else []) ++
    if x.significand = 0 then ['0', '.', '0'] else (shortest x.significand x.exponent).text

end ApiTypes.Decimal
