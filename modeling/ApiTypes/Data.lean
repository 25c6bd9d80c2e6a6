import ApiTypes.Literal

/-! # Data

A value that is read as a whole before anything is asked of it: every scalar has its kind, and the
entries of a mapping, whose keys may be of any kind, are kept in order with their repetitions.

Main definitions: `Data`, `Data.literal?`. -/

namespace ApiTypes

open Decimal (Binary64)

/-- A value as it stands in a document. -/
inductive Data where
  | null
  | bool (value : Bool)
  /-- A whole number, not written with a minus. -/
  | natural (value : Nat)
  /-- A whole number written with a minus. -/
  | signed (value : Int)
  /-- Any other number; an infinity and what is not a number have no value. -/
  | real (value : Option Binary64)
  | text (value : String)
  | list (items : List Data)
  | mapping (entries : List (Data × Data))

instance : Inhabited Data := ⟨.null⟩

namespace Data

mutual
/-- The value as a literal; none where a key is not a text. -/
def literal? : Data → Option Literal
  | .null => some .null
  | .bool b => some (.bool b)
  | .natural n => some (.integer n)
  | .signed n => some (.integer n)
  | .real x => some ((x.map .real).getD .null)
  | .text s => some (.text s)
  | .list items => (literals? items).map .list
  | .mapping entries => (members? entries).map .ofMembers

/-- The values as literals. -/
def literals? : List Data → Option (List Literal)
  | [] => some []
  | a :: rest => do
    let a ← literal? a
    let rest ← literals? rest
    pure (a :: rest)

/-- The entries as members of an object. -/
def members? : List (Data × Data) → Option (List (String × Literal))
  | [] => some []
  | (.text k, v) :: rest => do
    let v ← literal? v
    let rest ← members? rest
    pure ((k, v) :: rest)
  | _ :: _ => none
end

end Data

end ApiTypes
