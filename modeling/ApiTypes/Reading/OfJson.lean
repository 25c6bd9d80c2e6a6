import ApiTypes.Json.Syntax
import ApiTypes.Reading.Place

/-! # Places in JSON

A value of a JSON text with the number of levels it may still have.  What is not asked for is not
looked at: it may nest more deeply and hold values that denote nothing.

Main definitions: `Json.maxLevels`, `Json.At`, `Json.data?`. -/

namespace ApiTypes.Json

/-- How many levels of lists and objects a value may have. -/
def maxLevels : Nat := 127

/-- A value and the number of levels it may have. -/
structure At where
  value : Json
  levels : Nat

/-- A number as data. -/
def Numeral.data : Numeral → Data
  | .natural n => .natural n
  | .signed n => .signed n
  | .real x => .real (some x)

mutual
/-- The whole value, of at most the levels given. -/
def data? (levels : Nat) : Json → Option Data
  | .null => some .null
  | .bool b => some (.bool b)
  | .number n => some n.data
  | .text s => some (.text s)
  | .unreadable => none
  | .list items => if levels = 0 then none else (dataList? (levels - 1) items).map .list
  | .object members => if levels = 0 then none else (dataMembers? (levels - 1) members).map .mapping

/-- The whole of each value. -/
def dataList? (levels : Nat) : List Json → Option (List Data)
  | [] => some []
  | a :: rest => do
    let a ← data? levels a
    let rest ← dataList? levels rest
    pure (a :: rest)

/-- The whole of each member. -/
def dataMembers? (levels : Nat) : List (Option String × Json) → Option (List (Data × Data))
  | [] => some []
  | (some k, v) :: rest => do
    let v ← data? levels v
    let rest ← dataMembers? levels rest
    pure ((.text k, v) :: rest)
  | (none, _) :: _ => none
end

/-- The items of a list. -/
def At.items? (p : At) : Option (List At) :=
  match p.value with
  | .list items => if p.levels = 0 then none else some (items.map (⟨·, p.levels - 1⟩))
  | _ => none

/-- The members of an object; all names have to be texts. -/
def At.members? (p : At) : Option (List (String × At)) :=
  match p.value with
  | .object members =>
    if p.levels = 0 then none
    else members.mapM fun m => m.1.map (·, ⟨m.2, p.levels - 1⟩)
  | _ => none

/-- The fields of a structure: an object of them, or a list of them in their order. -/
def At.fields? (names : List String) (needed : Nat) (p : At) : Option (Fields At) :=
  match p.value with
  | .object _ => p.members?.bind (Fields.select? names)
  | .list _ => p.items?.bind (Fields.ofPositions? names needed)
  | _ => none

/-- The position of a keyword, which is a text or the name of an object's one member, null. -/
def At.keyword? (words : List String) (p : At) : Option (Option Nat) :=
  match p.value with
  | .text s => some (words.idxOf? s)
  | .object [(some s, .null)] => if p.levels = 0 then none else some (words.idxOf? s)
  | _ => none

instance : Place At where
  text p := match p.value with
    | .text s => pure s
    | _ => failure
  flag p := match p.value with
    | .bool b => pure b
    | _ => failure
  optional p := match p.value with
    | .null => pure none
    | _ => pure (some p)
  list p := .ofOption p.items?
  entries p := .ofOption p.members?
  fields names needed p := .ofOption (p.fields? names needed)
  keyword words p := .ofOption (p.keyword? words)
  literal p := .ofOption ((p.value.data? p.levels).bind Data.literal?)
  data p := .ofOption (p.value.data? p.levels)

end ApiTypes.Json
