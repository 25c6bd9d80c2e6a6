import ApiTypes.Decimal.Binary64

/-! # JSON values

The values of JSON text, read without losing what only some uses of a value object to: members keep
their order and their repetitions, and a number beyond the range of doubles or a string with half a
surrogate pair is kept as a value that denotes nothing.

Main definitions: `Json`, `Json.Numeral`. -/

namespace ApiTypes

open Decimal (Binary64)

namespace Json

/-- A number in one of the three ways it is kept. -/
inductive Numeral where
  /-- A whole number written without a minus. -/
  | natural (n : Nat)
  /-- A whole number written with a minus. -/
  | signed (n : Int)
  /-- Any other number. -/
  | real (x : Binary64)
  deriving DecidableEq, Repr

end Json

/-- A JSON value. -/
inductive Json where
  | null
  | bool (value : Bool)
  | number (value : Json.Numeral)
  | text (value : String)
  /-- Well formed, but without a value. -/
  | unreadable
  | list (items : List Json)
  /-- A name is absent where it is well formed but no text. -/
  | object (members : List (Option String × Json))

instance : Inhabited Json := ⟨.null⟩

end ApiTypes
