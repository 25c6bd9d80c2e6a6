/-! # Doubles

The finite numbers of the 64 bit binary format, as a sign, a significand and a power of two, and the
rounding of a ratio to the nearest of them (a tie goes to the even significand).

Main definitions: `Binary64`, `roundDiv`, `nearest`, `ofNat`, `mul`, `div`, `ofDecimal`. -/

namespace ApiTypes.Decimal

/-- A finite double: `significand · 2 ^ exponent` with a sign.  In normal form the significand has
53 bits, or the exponent is the least one, -1074. -/
structure Binary64 where
  negative : Bool
  significand : Nat
  exponent : Int
  deriving DecidableEq, Repr

/-- The quotient rounded to the nearest whole number, a tie to the even one. -/
def roundDiv (num den : Nat) : Nat :=
  let q := num / den
  let r := num % den
  if 2 * r > den || (2 * r == den && q % 2 == 1) then q + 1 else q

/-- The ratio `num / den` divided by `2 ^ e`, as a ratio. -/
def scaleDown (num den : Nat) (e : Int) : Nat × Nat :=
  if 0 ≤ e then (num, den * Nat.pow 2 e.toNat) else (num * Nat.pow 2 (-e).toNat, den)

/-- The greatest `k` with `2 ^ k ≤ num / den`, for a positive ratio. -/
def floorLog2 (num den : Nat) : Int :=
  let d : Int := (num.log2 : Int) - den.log2
  let (n, m) := scaleDown num den d
  if m ≤ n then d else d - 1

namespace Binary64

/-- The least exponent. -/
def minExponent : Int := -1074

/-- The greatest exponent of a significand of 53 bits. -/
def maxExponent : Int := 971

/-- Zero with a sign. -/
def zero (negative : Bool) : Binary64 := ⟨negative, 0, minExponent⟩

/-- The double nearest to a ratio; none where it is beyond the greatest. -/
def nearest (num den : Nat) : Option Binary64 :=
  if num = 0 then some (zero false)
  else
    let e := max (floorLog2 num den - 52) minExponent
    let (n, m) := scaleDown num den e
    let q := roundDiv n m
    let (q, e) := if q = Nat.pow 2 53 then (Nat.pow 2 52, e + 1) else (q, e)
    if e > maxExponent then none else some ⟨false, q, e⟩

/-- The double nearest to `num · 2 ^ e / den`. -/
def nearestScaled (num den : Nat) (e : Int) : Option Binary64 :=
  let (n, m) := scaleDown num den (-e)
  nearest n m

/-- The double nearest to a whole number. -/
def ofNat (n : Nat) : Option Binary64 := nearest n 1

/-- The rounded product of two doubles that are not negative. -/
def mul (a b : Binary64) : Option Binary64 :=
  nearestScaled (a.significand * b.significand) 1 (a.exponent + b.exponent)

/-- The rounded quotient of two doubles that are not negative, the second not zero. -/
def div (a b : Binary64) : Option Binary64 :=
  nearestScaled a.significand b.significand (a.exponent - b.exponent)

/-- The double with the sign given. -/
def withSign (negative : Bool) (x : Binary64) : Binary64 := { x with negative }

/-- The double nearest to `digits · 10 ^ exponent`, where `digits` has at most `width` digits; none
where it is beyond the greatest.  A number far outside the range is answered without its power. -/
def ofDecimal (digits width : Nat) (exponent : Int) : Option Binary64 :=
  if digits = 0 then some (zero false)
  else if exponent > 400 then none
  else if exponent + width < -400 then some (zero false)
  else if 0 ≤ exponent then nearest (digits * Nat.pow 10 exponent.toNat) 1
  else nearest digits (Nat.pow 10 (-exponent).toNat)

end Binary64

end ApiTypes.Decimal
