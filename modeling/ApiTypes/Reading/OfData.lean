import ApiTypes.Reading.Place

/-! # Places in data

Where a value has been read as a whole, each question asks for its kind: nothing counts as a text
but a text.  A structure is a mapping of its fields by name, or by the position of the field as a
number, or a list of its fields.  A keyword is a text, or a mapping of the one keyword to null. -/

namespace ApiTypes.Data

/-- The text of a key. -/
def keyText? : Data → Option String
  | .text s => some s
  | _ => none

/-- The name that a key of a structure gives: a text, or the position of a name; a position beyond
the names gives none of them. -/
def fieldName? (names : List String) : Data → Option (Option String)
  | .text s => some (some s)
  | .natural i => some names[i]?
  | _ => none

/-- The entries of a structure, those without a name left out. -/
def named? (names : List String) : List (Data × Data) → Option (List (String × Data))
  | [] => some []
  | (k, v) :: rest => do
    let rest ← named? names rest
    match ← fieldName? names k with
    | some n => pure ((n, v) :: rest)
    | none => pure rest

/-- The fields of a structure. -/
def fields? (names : List String) (needed : Nat) : Data → Option (Fields Data)
  | .mapping entries => (named? names entries).bind (Fields.select? names)
  | .list items => Fields.ofPositions? names needed items
  | _ => none

/-- The position of a keyword: none where it is no keyword at all. -/
def keyword? (words : List String) : Data → Option (Option Nat)
  | .text s => some (words.idxOf? s)
  | .mapping [(.text s, .null)] => some (words.idxOf? s)
  | .mapping [(.natural i, .null)] => some (if i < words.length then some i else none)
  | _ => none

instance : Place Data where
  text
    | .text s => pure s
    | _ => failure
  flag
    | .bool b => pure b
    | _ => failure
  optional
    | .null => pure none
    | d => pure (some d)
  list
    | .list items => pure items
    | _ => failure
  entries
    | .mapping es => .ofOption (es.mapM fun e => (keyText? e.1).map (·, e.2))
    | _ => failure
  fields names needed d := .ofOption (fields? names needed d)
  keyword words d := .ofOption (keyword? words d)
  literal d := .ofOption d.literal?
  data := pure

end ApiTypes.Data
