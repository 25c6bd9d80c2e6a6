import ApiTypes.Json.Syntax

/-! # JSON numbers

The value of a number's digits.  Its digits are gathered while they fit 64 bits; what is left of the
whole part counts as powers of ten and what is left of the fraction is dropped.  The double is the
gathered number times or divided by a power of ten that is itself a double, so it may differ in its
last bit from the nearest one.

Main definitions: `gather`, `scaleByTen`, `Numeral.ofDigits`. -/

namespace ApiTypes.Json

open Decimal (Binary64)

/-- The greatest number of 64 bits. -/
def maxNatural : Nat := Nat.pow 2 64 - 1

/-- The least signed number of 64 bits, without its minus. -/
def maxNegated : Nat := Nat.pow 2 63

/-- Append digits to a number while it fits 64 bits; also how many digits are left. -/
def gather (n : Nat) : List Nat → Nat × Nat
  | [] => (n, 0)
  | d :: ds => if n * 10 + d ≤ maxNatural then gather (n * 10 + d) ds else (n, ds.length + 1)

/-- `x · 10 ^ e` in steps of doubles: powers up to `10 ^ 308` at once, smaller numbers by dividing
by `10 ^ 308` first; none where the number is too great.  Three such divisions leave zero of any
gathered number. -/
def scaleByTen : Nat → Binary64 → Int → Option Binary64
  | 0, _, _ => some (.zero false)
  | steps + 1, x, e =>
    if e.natAbs ≤ 308 then
      (Binary64.ofNat (Nat.pow 10 e.natAbs)).bind fun p => if 0 ≤ e then x.mul p else x.div p
    else if x.significand = 0 then some x
    else if 0 ≤ e then none
    else ((Binary64.ofNat (Nat.pow 10 308)).bind x.div).bind fun y => scaleByTen steps y (e + 308)

/-- The double of a gathered number and a power of ten. -/
def realOf (negative : Bool) (n : Nat) (e : Int) : Option Numeral :=
  ((Binary64.ofNat n).bind fun x => scaleByTen 4 x e).map fun x => .real (x.withSign negative)

/-- The number with the digits given: whole part, fraction and exponent, the latter two where they
are written. -/
def Numeral.ofDigits (negative : Bool) (whole : List Nat) (fraction : Option (List Nat))
    (exponent : Option Int) : Option Numeral :=
  let (n, left) := gather 0 whole
  match fraction, exponent with
  | none, none =>
    if left ≠ 0 then realOf negative n left
    else if !negative then some (.natural n)
    else if n = 0 ∨ n > maxNegated then realOf true n 0
    else some (.signed (-n))
  | _, _ =>
    let places := fraction.getD []
    let (n, dropped) := gather n places
    realOf negative n ((left : Int) - (places.length - dropped) + exponent.getD 0)

end ApiTypes.Json
