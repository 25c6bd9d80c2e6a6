import ApiTypes.Proofs.Binding.Keys
import ApiTypes.Proofs.Resolution.Redirection

/-! # From version 2 to version 3

A description in version 2 is written in version 3: what it shares moves under its components, the
schemas of responses move under the media type of JSON, the keywords beside the name of a parameter
move into a schema, and the last parameter in a body becomes the body.  References may have to be
written with other paths.  What is shared is found in both (`findParameter_toVersion3`,
`findResponse_toVersion3`).

Main definitions: `Api.toVersion3`, `Api.IsVersion2`. -/

namespace ApiTypes

/-- A reference with another path, or the item changed. -/
def RefOr.mapBoth {α β : Type} (f : String → String) (g : α → β) : RefOr α → RefOr β
  | .ref path => .ref (f path)
  | .item a => .item (g a)

/-- Content of JSON alone, or no content. -/
def Content.ofJson : Option Schema → Content
  | some s => Table.empty.insert jsonType (some s)
  | none => .empty

/-- The schema of the response is that of its JSON. -/
def Response.toVersion3 (f : String → String) (r : Response) : Response where
  description := r.description
  content := .ofJson (r.schema.map (·.redirect f))

/-- The keywords beside the name become the schema, unless there is one. -/
def Parameter.toVersion3 (f : String → String) (p : Parameter) : Parameter :=
  match p.schema, p.type with
  | none, some type =>
    { p with
      schema := some (.inline { type, items := p.items.map (·.redirect f), enum := p.enum })
      type := none
      items := none
      enum := [] }
  | schema, _ =>
    { p with schema := schema.map (·.redirect f), items := p.items.map (·.redirect f) }

/-- Is the parameter, or the shared one that is referred to, a body? -/
def Api.namesBody (api : Api) (r : RefOr Parameter) : Bool :=
  (api.parameter? r).any (·.location = .body)

/-- The parameters without those that are bodies. -/
def Api.besidesBody (f : String → String) (api : Api) (refs : List (RefOr Parameter)) :
    List (RefOr Parameter) :=
  (refs.filter (!api.namesBody ·)).map (.mapBoth f (Parameter.toVersion3 f))

/-- The last body among the parameters of a path and of an operation of it. -/
def Operation.bodyParameter? (api : Api) (ofPath : List (RefOr Parameter)) (op : Operation) :
    Option Parameter :=
  (Binding.collectParameters api ofPath op.parameters).result.toOption.bind fun ps =>
    (ps.filter (·.location = .body)).getLast?

/-- The body stands beside the parameters. -/
def Operation.toVersion3 (f : String → String) (api : Api) (ofPath : List (RefOr Parameter))
    (op : Operation) : Operation :=
  { op with
    parameters := api.besidesBody f op.parameters
    requestBody := (op.bodyParameter? api ofPath).map fun p => .item {
      description := p.description
      content := .ofJson (p.schema.map (·.redirect f))
      required := p.required }
    responses := op.responses.map (.mapBoth f (Response.toVersion3 f)) }

/-- The bodies of the path stand in its operations. -/
def PathItem.toVersion3 (f : String → String) (api : Api) (item : PathItem) : PathItem where
  parameters := api.besidesBody f item.parameters
  operation m := (item.operation m).map (·.toVersion3 f api item.parameters)

/-- The description in version 3; its references may have to be written with other paths. -/
def Api.toVersion3 (f : String → String) (api : Api) : Api where
  openapi := some "3.0.0"
  info := api.info
  paths := api.paths.map (·.toVersion3 f api)
  components := {
    schemas := api.definitions.redirect f
    responses := api.responses.map (.mapBoth f (Response.toVersion3 f))
    parameters := api.parameters.map (.mapBoth f (Parameter.toVersion3 f)) }

/-- Nothing in the description is written as in version 3: it has no components, and neither bodies
beside parameters nor content in responses. -/
structure Api.IsVersion2 (api : Api) : Prop where
  components : api.components = {}
  requestBodies : api.paths.Holds fun _ item => ∀ m, ∀ op ∈ item.operation m, op.requestBody = none
  contents : api.paths.Holds fun _ item => ∀ m, ∀ op ∈ item.operation m,
    op.responses.Holds fun _ r => r.Holds fun r => r.content = .empty
  sharedContents : api.responses.Holds fun _ r => r.Holds fun r => r.content = .empty

/-! ### What is shared -/

theorem Content.schemaFor_ofJson (s : Option Schema) : (ofJson s).schemaFor jsonType = s := by
  cases s with
  | none => rfl
  | some s => simp [ofJson, schemaFor, Table.get?_insert]

theorem RequestBody.jsonSchema_ofJson {description : Option String} {required : Bool}
    (s : Option Schema) : jsonSchema ⟨description, .ofJson s, required⟩ = s :=
  Content.schemaFor_ofJson s

theorem Response.jsonSchema_toVersion3 {f : String → String} {r : Response}
    (h : r.content = .empty) : (r.toVersion3 f).jsonSchema = r.jsonSchema.map (·.redirect f) := by
  have hempty : r.jsonSchema = r.schema := by
    unfold jsonSchema
    rw [h]
    rfl
  rw [hempty]
  unfold toVersion3
  cases r.schema with
  | none => rfl
  | some s =>
      simp only [jsonSchema, Content.jsonSchema, Content.schemaFor_ofJson, Option.map_some]

variable {api : Api} {f : String → String}

/-- What is shared in version 2 is found in version 3, changed. -/
theorem Api.declared?_mapBoth {α : Type} {g : α → α} (t : Table (RefOr α)) (name : String) :
    (declared? (t.map (.mapBoth f g)) .empty name).bind RefOr.item? =
      ((declared? .empty t name).bind RefOr.item?).map g := by
  have hempty : (Table.empty : Table (RefOr α)).get? name = none := rfl
  unfold declared?
  rw [Table.get?_map, hempty]
  cases t.get? name with
  | none => rfl
  | some r => cases r <;> rfl

namespace Api.IsVersion2

variable (h : api.IsVersion2)
include h

theorem schemas_toVersion3 : (api.toVersion3 f).schemas = api.schemas.redirect f := by
  have hold : api.schemas = api.definitions := by
    unfold schemas
    rw [h.components]
    rfl
  rw [hold]
  unfold schemas
  split
  · next hempty => exact Table.eq_of_entries (List.isEmpty_iff.mp hempty).symm
  · rfl

theorem findParameter_toVersion3 (name : String) : (api.toVersion3 f).findParameter name =
    (api.findParameter name).map (Parameter.toVersion3 f) := by
  unfold findParameter
  rw [h.components]
  exact declared?_mapBoth api.parameters name

theorem findResponse_toVersion3 (name : String) : (api.toVersion3 f).findResponse name =
    (api.findResponse name).map (Response.toVersion3 f) := by
  unfold findResponse
  rw [h.components]
  exact declared?_mapBoth api.responses name

theorem content_of_findResponse {name : String} {r : Response}
    (hr : api.findResponse name = some r) : r.content = .empty := by
  unfold findResponse at hr
  rw [h.components] at hr
  obtain ⟨entry, hentry, hitem⟩ := Option.bind_eq_some_iff.mp hr
  exact h.sharedContents name entry hentry r hitem

end Api.IsVersion2

end ApiTypes
