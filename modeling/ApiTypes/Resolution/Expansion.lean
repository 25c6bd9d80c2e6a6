import ApiTypes.Descriptor
import ApiTypes.DocText
import ApiTypes.Resolution.Reference
import ApiTypes.Table

/-! # Expanding schemas

A schema becomes a descriptor by its form; what a reference becomes is left to a lookup.  While the
descriptor is built, it is noted whether a lookup met a declared schema that is not resolved yet.

Main definitions: `Form`, `Shape.form`, `Expansion`, `Lookup`, `expand`, `describe`,
`Lookup.finished`. -/

namespace ApiTypes

/-! ### Forms -/

/-- The primitive type of a keyword. -/
def TypeKeyword.primitive? : TypeKeyword → Option Primitive
  | .string => some .string
  | .number | .integer => some .number
  | .boolean => some .boolean
  | _ => none

/-- What a schema written in its place is made of. -/
inductive Form where
  /-- The members of an enumeration. -/
  | enumeration (base : Primitive)
  /-- A primitive type. -/
  | primitive (type : Primitive)
  /-- An object with properties of its own. -/
  | object
  /-- An object without properties of its own, but with a first part. -/
  | extension
  /-- An array. -/
  | array
  /-- Whatever the first part is. -/
  | firstPart
  /-- An object of no particular shape. -/
  | record
  | any
  deriving DecidableEq, Repr

/-- The form of an object: its properties come before its parts. -/
def Shape.objectForm (s : Shape) : Form :=
  if !s.properties.isEmpty then .object
  else if !s.allOf.isEmpty then .extension
  else .record

/-- The form of a schema: an enumeration, else what its type says, else what its keywords show. -/
def Shape.form (s : Shape) : Form :=
  if !s.enum.isEmpty then .enumeration ((s.primary.bind TypeKeyword.primitive?).getD .string)
  else match s.primary with
    | some .object => s.objectForm
    | some .array => .array
    | some k => (k.primitive?.map .primitive).getD .any
    | none =>
      if !s.properties.isEmpty then .object
      else if s.items.isSome then .array
      else if !s.allOf.isEmpty then .firstPart
      else if !s.oneOf.isEmpty || !s.anyOf.isEmpty then .record
      else .any

/-! ### Expansion -/

/-- A descriptor, and whether it waits for a declared schema that is not resolved yet. -/
structure Expansion where
  type : Descriptor
  deferred : Bool := false
  deriving DecidableEq

/-- What references become: a type and a description for each name. -/
structure Lookup where
  resolve : String → Except InvalidRef Expansion
  description : String → Option String

/-- An object without properties of its own is a record where its first part is anything. -/
def Descriptor.asObject : Descriptor → Descriptor
  | .any => .record
  | d => d

/-- The description of a place for a schema: its own, else that of the schema it refers to. -/
def describe (l : Lookup) : Schema → Option String
  | .inline shape => shape.description.bind DocText.cleanDescription
  | .ref path =>
    match refName path with
    | .ok name => l.description name
    | .error _ => none

/-- The default that is written in a place for a schema. -/
def Schema.default? : Schema → Option Literal
  | .inline shape => shape.default
  | .ref _ => none

mutual
/-- The descriptor of a schema. -/
def expand (l : Lookup) : Schema → Except InvalidRef Expansion
  | .ref path => do l.resolve (← refName path)
  | .inline shape => expandShape l shape

/-- The descriptor of a schema written in its place. -/
def expandShape (l : Lookup) : Shape → Except InvalidRef Expansion
  | ⟨type, description, default, properties, required, items, allOf, oneOf, anyOf, enum⟩ =>
    match Shape.form
        ⟨type, description, default, properties, required, items, allOf, oneOf, anyOf, enum⟩ with
    | .enumeration base => return { type := .enumeration base enum }
    | .primitive p => return { type := .primitive p }
    | .object => do
      let (fields, deferred) ← expandFields l required properties
      return { type := .object fields, deferred }
    | .extension =>
      match allOf with
      | first :: _ => do
        let e ← expand l first
        return { e with type := e.type.asObject }
      | [] => return { type := .record }
    | .array =>
      match items with
      | some item => do
        let e ← expand l item
        return { e with type := .array e.type }
      | none => return { type := .array .any }
    | .firstPart =>
      match allOf with
      | first :: _ => expand l first
      | [] => return { type := .any }
    | .record => return { type := .record }
    | .any => return { type := .any }

/-- The fields of properties, in order. -/
def expandFields (l : Lookup) (required : List String) :
    List (String × Schema) → Except InvalidRef (List Field × Bool)
  | [] => return ([], false)
  | (key, s) :: rest => do
    let e ← expand l s
    let (fields, deferred) ← expandFields l required rest
    return (
      { key, type := e.type, description := describe l s, required := required.contains key,
        default := s.default? } :: fields,
      e.deferred || deferred)
end

/-! ### Finished tables -/

/-- The lookup in a finished table; a name that is not there stays unresolved. -/
def Lookup.finished (table : Table ResolvedSchema) : Lookup where
  resolve name := return match table.get? name with
    | some target => { type := target.type }
    | none => { type := .pending name }
  description name := (table.get? name).bind (·.description)

end ApiTypes
