import ApiTypes.Api.Schema
import ApiTypes.Text.Search

/-! # References

A reference is a path whose last segment is the name it refers to.  The references of a schema are
those under its properties, its items and the first part of its `allOf`, at any depth.

Main definitions: `InvalidRef`, `refName`, `Schema.references`. -/

namespace ApiTypes

/-- A reference with nothing after its last slash. -/
structure InvalidRef where
  path : String
  deriving DecidableEq, Repr

/-- The message of an invalid reference. -/
def InvalidRef.message (e : InvalidRef) : String := "invalid reference format: " ++ e.path

/-- The name that a reference refers to: what follows its last slash. -/
def refName (path : String) : Except InvalidRef String :=
  let name := Text.lastSegment '/' path.toList
  if name.isEmpty then .error ⟨path⟩ else .ok (String.ofList name)

mutual
/-- The names that a schema refers to, in order and with repetitions, or its first invalid
reference. -/
def Schema.references : Schema → Except InvalidRef (List String)
  | .ref path => do return [← refName path]
  | .inline shape => shape.references

/-- The names that the keywords of a schema refer to. -/
def Shape.references : Shape → Except InvalidRef (List String)
  | ⟨_, _, _, properties, _, items, allOf, _, _, _⟩ => do
    let ofProperties ← propertyReferences properties
    let ofItems ← match items with
      | some s => s.references
      | none => pure []
    let ofFirst ← match allOf with
      | s :: _ => s.references
      | [] => pure []
    return ofProperties ++ ofItems ++ ofFirst

/-- The names that properties refer to. -/
def propertyReferences : List (String × Schema) → Except InvalidRef (List String)
  | [] => pure []
  | (_, s) :: rest => do
    let ofFirst ← s.references
    return ofFirst ++ (← propertyReferences rest)
end

end ApiTypes
