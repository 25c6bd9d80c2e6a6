import ApiTypes.Api.Schema
import ApiTypes.Reading.OfData
import ApiTypes.Table

/-! # Reading schemas

A place for a schema is read as a whole first: it is a reference where it is a mapping with exactly
one `$ref`, a text, whatever else it holds; otherwise its keywords are read.

Main definitions: `refPath?`, `refOr`, `typeSet`, `shapeOf`, `schema`. -/

namespace ApiTypes.Reading

variable {π α : Type} [Place π]

/-! ### References -/

/-- The path of a reference. -/
def refPath? : Data → Option String
  | .mapping entries =>
    match Data.fields? ["$ref"] 1 (.mapping entries) with
    | some [(_, .text path)] => some path
    | _ => none
  | _ => none

/-- A reference, or an item read as given. -/
def refOr (read : Data → Reading α) (p : π) : Reading (RefOr α) := do
  let d ← Place.data p
  match refPath? d with
  | some path => pure (.ref path)
  | none => .item <$> read d

/-! ### Types -/

/-- The words of the type keywords. -/
def typeWords : List String :=
  ["string", "number", "integer", "boolean", "array", "object", "null", "file"]

/-- The keyword at a position of the words; any other word is unknown. -/
def typeKeywordAt : Option Nat → TypeKeyword
  | some 0 => .string
  | some 1 => .number
  | some 2 => .integer
  | some 3 => .boolean
  | some 4 => .array
  | some 5 => .object
  | some 6 => .null
  | some 7 => .file
  | _ => .unknown

/-- A type keyword. -/
def typeKeyword? (d : Data) : Option TypeKeyword :=
  (Data.keyword? typeWords d).map typeKeywordAt

/-- One type keyword, or a list of them. -/
def typeSet? (d : Data) : Option TypeSet :=
  match typeKeyword? d with
  | some k => some (.single k)
  | none =>
    match d with
    | .list items => (items.mapM typeKeyword?).map .multiple
    | _ => none

/-- The value of `type`. -/
def typeSet (p : π) : Reading TypeSet := do
  let d ← Place.data p
  .ofOption (typeSet? d)

/-! ### Schemas -/

/-- The names of a schema's keywords, in order. -/
def shapeFields : List String :=
  ["type", "description", "default", "properties", "required", "items", "allOf", "oneOf", "anyOf",
    "enum"]

/-- The keywords of a schema; the schemas in it are read as given. -/
def shapeOf (read : Data → Reading Schema) (d : Data) : Reading Shape := do
  let fs ← Place.fields shapeFields 0 d
  pure {
    type := ← Place.optionField fs "type" typeSet
    description := ← Place.optionField fs "description" Place.text
    default := ← Place.optionField fs "default" Place.literal
    properties := ← Place.fieldOr fs "properties" [] fun p => do
      pure (Table.ofList (← Place.entriesOf read p)).entries
    required := ← Place.listField fs "required" Place.text
    items := ← Place.optionField fs "items" read
    allOf := ← Place.listField fs "allOf" read
    oneOf := ← Place.listField fs "oneOf" read
    anyOf := ← Place.listField fs "anyOf" read
    enum := ← Place.listField fs "enum" Place.literal }

/-- A schema that nests no more than the levels given. -/
def schemaWithin : (levels : Nat) → Data → Reading Schema
  | 0, _ => failure
  | levels + 1, d =>
    match refPath? d with
    | some path => pure (.ref path)
    | none => .inline <$> shapeOf (schemaWithin levels) d

mutual
/-- The number of levels of a value. -/
def levelsOf : Data → Nat
  | .list items => levelsOfList items + 1
  | .mapping entries => levelsOfEntries entries + 1
  | _ => 1

/-- The greatest number of levels among values. -/
def levelsOfList : List Data → Nat
  | [] => 0
  | a :: rest => max (levelsOf a) (levelsOfList rest)

/-- The greatest number of levels among the values of entries. -/
def levelsOfEntries : List (Data × Data) → Nat
  | [] => 0
  | (_, v) :: rest => max (levelsOf v) (levelsOfEntries rest)
end

/-- A schema. -/
def schema (p : π) : Reading Schema := do
  let d ← Place.data p
  schemaWithin (levelsOf d) d

end ApiTypes.Reading
