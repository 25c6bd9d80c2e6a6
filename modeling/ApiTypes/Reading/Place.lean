import ApiTypes.Data

/-! # Places in a document

A place is a part of a document of which something is asked: a text, a list, the fields of a
structure.  What is read in these terms is read alike from every format; each format says which
places give which answer.  A reading fails where a place does not have the form asked for; it keeps
count of how many more aliases may be followed.

Main definitions: `Reading`, `Place`, `Fields`. -/

namespace ApiTypes

/-- A reading that may fail, with the number of aliases it may still follow. -/
abbrev Reading := StateT Nat Option

namespace Reading

/-- A result that may be missing. -/
def ofOption {α : Type} (a : Option α) : Reading α := fun left => a.map (·, left)

/-- The result of a reading that may follow some aliases. -/
def result? {α : Type} (aliases : Nat) (r : Reading α) : Option α := (r aliases).map (·.1)

end Reading

/-- The fields found, under their names. -/
abbrev Fields (π : Type) := List (String × π)

/-- What can be asked of the places of a format. -/
class Place (π : Type) where
  /-- A text. -/
  text : π → Reading String
  /-- A truth value. -/
  flag : π → Reading Bool
  /-- The place itself, unless it is null. -/
  optional : π → Reading (Option π)
  /-- The items of a list. -/
  list : π → Reading (List π)
  /-- The entries of a mapping from texts. -/
  entries : π → Reading (List (String × π))
  /-- The fields of a structure that has fields of the names given.  Where fields are read by their
  position, at least the first `needed` of them have to be there. -/
  fields : (names : List String) → (needed : Nat) → π → Reading (Fields π)
  /-- The position of a keyword among those given; none where it is another. -/
  keyword : (words : List String) → π → Reading (Option Nat)
  /-- A literal. -/
  literal : π → Reading Literal
  /-- The whole value. -/
  data : π → Reading Data

namespace Fields

variable {π : Type}

/-- Keep the fields of the names given; none of them may be there twice. -/
def select? (names : List String) : List (String × π) → Option (Fields π)
  | [] => some []
  | (n, p) :: rest =>
    (select? names rest).bind fun found =>
      if !names.contains n then some found
      else if (found.lookup n).isSome then none
      else some ((n, p) :: found)

/-- The fields of a list of places, by position. -/
def ofPositions? (names : List String) (needed : Nat) (places : List π) : Option (Fields π) :=
  if places.length < needed || names.length < places.length then none
  else some (names.zip places)

end Fields

namespace Place

variable {π α : Type} [Place π]

/-- The items of a list, each read as given. -/
def listOf (read : π → Reading α) (p : π) : Reading (List α) := do
  (← list p).mapM read

/-- Null, or what is read. -/
def optionOf (read : π → Reading α) (p : π) : Reading (Option α) := do
  match ← optional p with
  | none => pure none
  | some p => some <$> read p

/-- A field that takes a default where it is missing. -/
def fieldOr (fields : Fields π) (name : String) (missing : α) (read : π → Reading α) : Reading α :=
  match fields.lookup name with
  | none => pure missing
  | some p => read p

/-- A field that has to be there. -/
def field (fields : Fields π) (name : String) (read : π → Reading α) : Reading α :=
  match fields.lookup name with
  | none => failure
  | some p => read p

/-- An optional field. -/
def optionField (fields : Fields π) (name : String) (read : π → Reading α) : Reading (Option α) :=
  fieldOr fields name none (optionOf read)

/-- A list that is empty where its field is missing. -/
def listField (fields : Fields π) (name : String) (read : π → Reading α) : Reading (List α) :=
  fieldOr fields name [] (listOf read)

/-- The entries of a mapping, each value read as given. -/
def entriesOf (read : π → Reading α) (p : π) : Reading (List (String × α)) := do
  (← entries p).mapM fun e => (e.1, ·) <$> read e.2

end Place

end ApiTypes
