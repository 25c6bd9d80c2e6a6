import ApiTypes.Api.Schema

/-! # Parameters

A parameter of an operation.  Its type is described by a schema, or by keywords written beside its
name.

Main definitions: `Location`, `Parameter`, `Parameter.effectiveSchema`, `Parameter.defaultValue`. -/

namespace ApiTypes

/-- Where a parameter is sent. -/
inductive Location where
  | query
  | header
  | path
  | cookie
  | body
  | formData
  deriving DecidableEq, Repr

/-- A parameter as it is declared. -/
structure Parameter where
  name : String
  location : Location
  description : Option String := none
  required : Bool := false
  schema : Option Schema := none
  type : Option TypeSet := none
  items : Option Schema := none
  enum : List Literal := []
  default : Option Literal := none

namespace Parameter

/-- The schema of the values: the declared one, else one made of the keywords beside the name. -/
def effectiveSchema (p : Parameter) : Option Schema :=
  match p.schema with
  | some s => some s
  | none => p.type.map fun t => .inline { type := some t, items := p.items, enum := p.enum }

/-- The default of the parameter, else that of its schema where it is written in its place. -/
def defaultValue (p : Parameter) : Option Literal :=
  match p.default with
  | some v => some v
  | none =>
    match p.schema with
    | some (.inline shape) => shape.default
    | _ => none

end Parameter

end ApiTypes
