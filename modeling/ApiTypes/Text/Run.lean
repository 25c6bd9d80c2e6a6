/-! # Runs of code points

A property of characters is given as a list of runs: the code points from a first to a last one in
steps of one or two.  A case mapping is given as runs that all move by one offset.

Main definitions: `Run.has`, `anyHas`, `Shift`, `shifted?`. -/

namespace ApiTypes.Text

/-- The code points `first, first + step, …` up to `last`. -/
structure Run where
  first : Nat
  last : Nat
  step : Nat

/-- Does the run hold the code point? -/
def Run.has (r : Run) (n : Nat) : Bool :=
  decide (r.first ≤ n) && decide (n ≤ r.last) && (n - r.first) % r.step == 0

/-- Is the code point in one of the runs? -/
def anyHas (runs : List Run) (n : Nat) : Bool :=
  runs.any (·.has n)

/-- A run of code points whose other case lies `offset` further. -/
structure Shift where
  run : Run
  offset : Int

/-- The other case of a code point, where one of the shifts gives it. -/
def shifted? (shifts : List Shift) (n : Nat) : Option Nat :=
  (shifts.find? (·.run.has n)).map fun s => ((n : Int) + s.offset).toNat

end ApiTypes.Text
