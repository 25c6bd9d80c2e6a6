import ApiTypes.Literal

/-! # Schemas

A schema describes values: by a reference to a named schema, or by the keywords written in its
place.  `type` is one keyword or a list of them.

Main definitions: `TypeKeyword`, `TypeSet`, `Schema`, `Shape`. -/

namespace ApiTypes

/-- A keyword of `type`; `unknown` stands for every word that is none. -/
inductive TypeKeyword where
  | string
  | number
  | integer
  | boolean
  | array
  | object
  | null
  | file
  | unknown
  deriving DecidableEq, Repr

/-- The value of `type`. -/
inductive TypeSet where
  | single (keyword : TypeKeyword)
  | multiple (keywords : List TypeKeyword)
  deriving DecidableEq, Repr

/-- The keyword that decides how a schema is resolved: the one given, or the first of a list that is
not null. -/
def TypeSet.primary : TypeSet → Option TypeKeyword
  | .single k => some k
  | .multiple ks => ks.find? (· ≠ .null)

mutual
/-- A place for a schema: a reference or the keywords themselves. -/
inductive Schema where
  | ref (path : String)
  | inline (shape : Shape)

/-- The keywords of a schema that matter to its type; all of them may be missing. -/
structure Shape where
  type : Option TypeSet := none
  description : Option String := none
  default : Option Literal := none
  properties : List (String × Schema) := []
  required : List String := []
  items : Option Schema := none
  allOf : List Schema := []
  oneOf : List Schema := []
  anyOf : List Schema := []
  enum : List Literal := []
end

instance : Inhabited Schema := ⟨.ref ""⟩

/-- The path of a reference. -/
def Schema.refPath? : Schema → Option String
  | .ref path => some path
  | .inline _ => none

/-- The keyword that decides how the schema is resolved. -/
def Shape.primary (s : Shape) : Option TypeKeyword := s.type.bind TypeSet.primary

/-- A reference to an item, or the item itself. -/
inductive RefOr (α : Type) where
  | ref (path : String)
  | item (value : α)

/-- The item, where it stands in its place. -/
def RefOr.item? {α : Type} : RefOr α → Option α
  | .ref _ => none
  | .item a => some a

end ApiTypes
