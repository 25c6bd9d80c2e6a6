import ApiTypes.Proofs.Binding.RequestFields
import ApiTypes.TypeScript.Interface

/-! # Origins of fields

A bound operation has a list of fields only where there are fields to list, and a name for a type
exactly where the type has fields.  The field of a parameter has the origin of its location, a field
of the body that of the body, and every other field, at any depth, has none (`bound_fields`):
resolving a schema gives no field an origin, so there is none before the fields are bound.

Main definitions: `Descriptor.nestedFields`, `Descriptor.Unplaced`, `BoundFields`. -/

namespace ApiTypes

/-! ### Fields inside a type -/

namespace Descriptor

mutual
/-- The fields inside a descriptor, at any depth. -/
def nestedFields : Descriptor → List Field
  | .array item => nestedFields item
  | .object fields => fieldsWithNested fields
  | .primitive _ | .enumeration .. | .record | .any | .pending _ => []

/-- The fields inside the type of a field. -/
def nestedInField : Field → List Field
  | ⟨_, type, _, _, _, _⟩ => nestedFields type

/-- Fields, each followed by those inside it. -/
def fieldsWithNested : List Field → List Field
  | [] => []
  | f :: rest => f :: nestedInField f ++ fieldsWithNested rest
end

/-- No field inside the descriptor has an origin. -/
def Unplaced (d : Descriptor) : Prop := ∀ f ∈ d.nestedFields, f.origin = none

instance (d : Descriptor) : Decidable d.Unplaced :=
  inferInstanceAs (Decidable (∀ f ∈ d.nestedFields, f.origin = none))

theorem fieldsWithNested_eq (fields : List Field) :
    fieldsWithNested fields = fields.flatMap fun f => f :: f.type.nestedFields := by
  induction fields with
  | nil => rfl
  | cons f rest ih =>
      rw [fieldsWithNested, ih, List.flatMap_cons]
      cases f
      rfl

theorem unplaced_object_iff {fields : List Field} :
    (object fields).Unplaced ↔ ∀ f ∈ fields, f.origin = none ∧ f.type.Unplaced := by
  unfold Unplaced
  rw [nestedFields, fieldsWithNested_eq]
  simp only [List.mem_flatMap, List.mem_cons]
  constructor
  · intro h f hf
    exact ⟨h f ⟨f, hf, Or.inl rfl⟩, fun inner hinner => h inner ⟨f, hf, Or.inr hinner⟩⟩
  · rintro h inner ⟨f, hf, rfl | hinner⟩
    · exact (h inner hf).1
    · exact (h f hf).2 inner hinner

theorem nestedFields_asObject (d : Descriptor) : d.asObject.nestedFields = d.nestedFields := by
  cases d <;> rfl

theorem Unplaced.of_nil {d : Descriptor} (h : d.nestedFields = []) : d.Unplaced := by
  simp [Unplaced, h]

theorem Unplaced.asObject {d : Descriptor} (h : d.Unplaced) : d.asObject.Unplaced := by
  unfold Unplaced
  rw [nestedFields_asObject]
  exact h

/-- The fields of an object, or of the objects of an array, are inside it. -/
theorem Unplaced.fields {d : Descriptor} (h : d.Unplaced) {fields : List Field}
    (hf : d.fields? = some fields) : ∀ f ∈ fields, f.origin = none ∧ f.type.Unplaced := by
  unfold fields? at hf
  split at hf
  · obtain rfl := Option.some.inj hf
    exact unplaced_object_iff.mp h
  · obtain rfl := Option.some.inj hf
    exact unplaced_object_iff.mp h
  · cases hf

end Descriptor

theorem Shape.assemble_unplaced (shape : Shape) (about : Schema → Option String)
    (type : Schema → Descriptor) (hparts : ∀ s ∈ shape.parts, (type s).Unplaced) :
    (shape.assemble about type).Unplaced := by
  unfold parts at hparts
  unfold assemble
  cases hform : shape.form with
  | object =>
      rw [hform] at hparts
      refine Descriptor.unplaced_object_iff.mpr ?_
      intro f hf
      obtain ⟨p, hp, rfl⟩ := List.mem_map.mp hf
      exact ⟨rfl, hparts p.2 (List.mem_map_of_mem hp)⟩
  | extension =>
      rw [hform] at hparts
      cases hfirst : shape.allOf.head? with
      | none => exact .of_nil rfl
      | some first => exact (hparts first (by simp [hfirst])).asObject
  | array =>
      rw [hform] at hparts
      cases hitems : shape.items with
      | none => exact .of_nil rfl
      | some item => exact hparts item (by simp [hitems])
  | firstPart =>
      rw [hform] at hparts
      cases hfirst : shape.allOf.head? with
      | none => exact .of_nil rfl
      | some first => exact hparts first (by simp [hfirst])
  | enumeration base => exact .of_nil rfl
  | primitive p => exact .of_nil rfl
  | record => exact .of_nil rfl
  | any => exact .of_nil rfl

theorem expand_finished_unplaced {table : Table ResolvedSchema}
    (htable : table.Holds fun _ entry => entry.type.Unplaced) {s : Schema} {e : Expansion}
    (h : expand (.finished table) s = .ok e) : e.type.Unplaced :=
  expand_finished_type (Q := fun _ => True) (fun _ _ _ _ => trivial)
    (fun shape about type _ => shape.assemble_unplaced about type) (fun _ => .of_nil rfl) htable
    trivial h

theorem resolveSchemas_unplaced {schemas : Table Schema} {r : Resolution}
    (h : resolveSchemas schemas = .ok r) : r.table.Holds fun _ entry => entry.type.Unplaced :=
  resolveSchemas_type (Q := fun _ => True) (fun _ _ _ _ => trivial)
    (fun shape about type _ => shape.assemble_unplaced about type) (fun _ => .of_nil rfl)
    (.of_nil rfl) (fun _ _ _ => trivial) h

/-! ### Lists of fields -/

namespace Binding

variable {api : Api} {table : Table ResolvedSchema} {method : Method} {url : String}

theorem nonEmpty_eq_some_iff {α : Type} {l l' : List α} : nonEmpty l = some l' ↔ l' = l ∧ l ≠ [] := by
  cases l <;> simp [nonEmpty, eq_comm]

/-- Fields that are there and have no origin, neither they nor those inside them. -/
structure Fresh (fields : List Field) : Prop where
  ne_nil : fields ≠ []
  unplaced : ∀ f ∈ fields, f.origin = none ∧ f.type.Unplaced

theorem Fresh.of_bind_nonEmpty {d : Option Descriptor} {fields : List Field}
    (hd : ∀ type ∈ d, type.Unplaced)
    (h : (d.bind Descriptor.fields?).bind nonEmpty = some fields) : Fresh fields := by
  obtain ⟨found, hfound, hfields⟩ := Option.bind_eq_some_iff.mp h
  obtain ⟨type, htype, hfound⟩ := Option.bind_eq_some_iff.mp hfound
  obtain ⟨rfl, hne⟩ := nonEmpty_eq_some_iff.mp hfields
  exact ⟨hne, (hd type htype).fields hfound⟩

section
variable (htable : table.Holds fun _ entry => entry.type.Unplaced)
include htable

theorem bindParameter_unplaced {p : Parameter} {f : Field} (h : bindParameter table p = .ok f) :
    f.type.Unplaced := by
  unfold bindParameter at h
  cases hschema : p.effectiveSchema with
  | some s =>
      rw [hschema] at h
      obtain ⟨e, he, h⟩ := bind_eq_ok.mp h
      obtain rfl := Except.ok.inj h
      exact expand_finished_unplaced htable he
  | none =>
      rw [hschema] at h
      obtain rfl := Except.ok.inj h
      exact .of_nil rfl

theorem bindParameters_unplaced {ps : List Parameter} {fields : List Field}
    (h : List.Forall₂ (fun p f => bindParameter table p = .ok f) ps fields) :
    ∀ f ∈ fields, f.type.Unplaced := by
  induction h with
  | nil => simp
  | cons hf _ ih => exact List.forall_mem_cons.mpr ⟨bindParameter_unplaced htable hf, ih⟩

theorem schemaFields_fresh {name : String} {fields : List Field}
    (h : Yields (schemaFields table name) (some fields)) : Fresh fields := by
  have hfields := (schemaFields_eq h).symm
  refine .of_bind_nonEmpty (d := (table.get? name).map (·.type)) ?_ ?_
  · intro type htype
    obtain ⟨entry, hentry, rfl⟩ := Option.map_eq_some_iff.mp htype
    exact htable name entry hentry
  · rw [Option.bind_map]
    exact hfields

/-- The fields of a body or a response, wherever they come from. -/
theorem namedFields_fresh {s : Schema} {fields : List Field}
    (h : Yields (namedFields table s) (some fields)) : Fresh fields := by
  unfold namedFields at h
  split at h
  · obtain ⟨name, _, h⟩ := h.bind
    exact schemaFields_fresh htable h
  · obtain ⟨e, he, h⟩ := h.bind
    refine .of_bind_nonEmpty (d := some e.type) ?_ (yields_pure_iff.mp h)
    rintro type ⟨⟩
    exact expand_finished_unplaced htable (Noting.eq_ok_of_yields_lift he)

/-- The fields of a body come from those it has, and have its origin besides. -/
theorem bindBody_unplaced {schema : Option Schema} {body : Option (List Field)}
    (h : Yields (bindBody table method url schema) body) :
    ∀ fields ∈ body, fields ≠ [] ∧ ∀ f ∈ fields, f.type.Unplaced := by
  rcases bindBody_cases h with rfl | ⟨s, found, _, _, hfound, rfl⟩
  · simp
  · rintro fields ⟨⟩
    have hfresh := namedFields_fresh htable hfound
    refine ⟨by simpa using hfresh.ne_nil, ?_⟩
    intro f hf
    obtain ⟨f', hf', rfl⟩ := List.mem_map.mp hf
    exact (hfresh.unplaced f' hf').2

theorem responseFields_fresh {r : Response} {fields : List Field}
    (h : Yields (responseFields table method url r) (some fields)) : Fresh fields := by
  unfold responseFields at h
  split at h
  · exact namedFields_fresh htable h
  · obtain ⟨_, _, h⟩ := h.bind
    cases yields_pure_iff.mp h

theorem bindResponse_fresh {op : Operation} {fields : List Field}
    (h : Yields (bindResponse api table method url op) (some fields)) : Fresh fields := by
  rw [bindResponse_def] at h
  split at h
  · obtain ⟨_, _, h⟩ := h.bind
    cases yields_pure_iff.mp h
  · next r _ =>
    cases r with
    | item r => exact responseFields_fresh htable h
    | ref path =>
        obtain ⟨name, _, h⟩ := h.bind
        split at h
        · exact responseFields_fresh htable h
        · exact schemaFields_fresh htable h

end

end Binding

/-! ### Operations -/

/-- Which fields a bound operation has, where they come from, and which of its types are named. -/
structure BoundFields (api : Api) (item : PathItem) (op : Operation) (o : BoundOperation) :
    Prop where
  parameters_ne_nil : ∀ fields ∈ o.parameters, fields ≠ []
  requestBody_ne_nil : ∀ fields ∈ o.requestBody, fields ≠ []
  responses_ne_nil : ∀ fields ∈ o.responses, fields ≠ []
  requestTypeName_iff : o.requestTypeName.isSome = true ↔
    o.parameters.isSome = true ∨ o.requestBody.isSome = true
  responseTypeName_iff : o.responseTypeName.isSome = true ↔ o.responses.isSome = true
  requestBody_get : o.method = .get → o.requestBody = none
  /-- The fields of the parameters stand for them one by one, and say where each is sent. -/
  parameters_origin : List.Forall₂
    (fun p f => f.key = p.name ∧ f.origin = some (Binding.originOf p.location))
    (Binding.sent api item.parameters op.parameters) (o.parameters.getD [])
  parameters_not_body : ∀ f ∈ o.parameters.getD [], f.origin ≠ some .requestBody
  requestBody_origin : ∀ f ∈ o.requestBody.getD [], f.origin = some .requestBody
  responses_origin : ∀ f ∈ o.responses.getD [], f.origin = none
  nested_origin : ∀ f ∈ o.requestFields ++ o.responseFields, ∀ inner ∈ f.type.nestedFields,
    inner.origin = none

theorem BoundFields.of_bindOperation {api : Api} {table : Table ResolvedSchema}
    (htable : table.Holds fun _ entry => entry.type.Unplaced) {business : Business} {url : String}
    {item : PathItem} {method : Method} {op : Operation} {o : BoundOperation}
    (h : Yields (Binding.bindOperation api table business url method item.parameters op) o) :
    BoundFields api item op o := by
  obtain ⟨fields, schema, requestBody, responses, hfields, _, hbody, hresponses, rfl⟩ :=
    Binding.exists_bound h
  have hsent := Binding.bindParameters_unplaced htable hfields
  have hbodyFields := Binding.bindBody_unplaced htable hbody
  have hresponse : ∀ found ∈ responses, Binding.Fresh found := by
    rintro found rfl
    exact Binding.bindResponse_fresh htable hresponses
  have named : ∀ (c : Bool) (name : String),
      (if c then some name else none).isSome = true ↔ c = true := by
    rintro (_ | _) name <;> simp
  have mem_getD : ∀ {l : Option (List Field)} {f : Field}, f ∈ l.getD [] → ∃ fields ∈ l, f ∈ fields := by
    intro l f hf
    cases l with
    | none => cases hf
    | some fields => exact ⟨fields, rfl, hf⟩
  constructor
  case parameters_ne_nil =>
    intro found hfound
    obtain ⟨rfl, hne⟩ := Binding.nonEmpty_eq_some_iff.mp hfound
    exact hne
  case requestBody_ne_nil => exact fun found hfound => (hbodyFields found hfound).1
  case responses_ne_nil => exact fun found hfound => (hresponse found hfound).ne_nil
  case requestTypeName_iff => exact (named _ _).trans Bool.or_eq_true_iff
  case responseTypeName_iff => exact named _ _
  case requestBody_get =>
    rintro (rfl : method = .get)
    rcases Binding.bindBody_cases hbody with hnone | ⟨_, _, _, hne, _, _⟩
    · exact hnone
    · exact absurd rfl hne
  case parameters_origin =>
    rw [Binding.getD_nonEmpty]
    exact hfields.imp fun _ _ => Binding.key_origin_of_bindParameter
  case parameters_not_body =>
    rw [Binding.getD_nonEmpty]
    exact Binding.origin_ne hfields
  case requestBody_origin => exact Binding.bindBody_origin hbody
  case responses_origin =>
    intro f hf
    obtain ⟨found, hfound, hf⟩ := mem_getD hf
    exact ((hresponse found hfound).unplaced f hf).1
  case nested_origin =>
    unfold BoundOperation.requestFields BoundOperation.responseFields
    rw [Binding.getD_nonEmpty]
    intro f hf
    rcases List.mem_append.mp hf with hf | hf
    · rcases List.mem_append.mp hf with hf | hf
      · exact hsent f hf
      · obtain ⟨found, hfound, hf⟩ := mem_getD hf
        exact (hbodyFields found hfound).2 f hf
    · obtain ⟨found, hfound, hf⟩ := mem_getD hf
      exact ((hresponse found hfound).unplaced f hf).2

namespace BoundFields

variable {api : Api} {item : PathItem} {op : Operation} {o : BoundOperation}
  (h : BoundFields api item op o)
include h

theorem requestFields_ne_nil {name : String} (hname : o.requestTypeName = some name) :
    o.requestFields ≠ [] := by
  have hsome := h.requestTypeName_iff.mp (by rw [hname]; rfl)
  unfold BoundOperation.requestFields
  rw [ne_eq, List.append_eq_nil_iff, not_and_or]
  refine hsome.imp ?_ ?_
  · intro hparameters
    obtain ⟨fields, hfields⟩ := Option.isSome_iff_exists.mp hparameters
    rw [hfields]
    exact h.parameters_ne_nil fields hfields
  · intro hbody
    obtain ⟨fields, hfields⟩ := Option.isSome_iff_exists.mp hbody
    rw [hfields]
    exact h.requestBody_ne_nil fields hfields

theorem responseFields_ne_nil {name : String} (hname : o.responseTypeName = some name) :
    o.responseFields ≠ [] := by
  have hsome := h.responseTypeName_iff.mp (by rw [hname]; rfl)
  obtain ⟨fields, hfields⟩ := Option.isSome_iff_exists.mp hsome
  unfold BoundOperation.responseFields
  rw [hfields]
  exact h.responses_ne_nil fields hfields

/-- An interface is made only of a side that has fields. -/
theorem properties_ne_nil {business : String} {policy : Policy} {i : TypeScript.Interface}
    (hi : i ∈ TypeScript.interfacesOf business policy o) : i.properties ≠ [] := by
  unfold TypeScript.interfacesOf at hi
  have hmap : ∀ (force : Bool) (fields : List Field), fields ≠ [] →
      TypeScript.propertiesOf force fields ≠ [] := by
    intro force fields hne
    simpa [TypeScript.propertiesOf] using hne
  rcases List.mem_append.mp hi with hi | hi
  · obtain ⟨name, hname, rfl⟩ := Option.map_eq_some_iff.mp (Option.mem_toList.mp hi)
    exact hmap _ _ (h.requestFields_ne_nil hname)
  · obtain ⟨name, hname, rfl⟩ := Option.map_eq_some_iff.mp (Option.mem_toList.mp hi)
    exact hmap _ _ (h.responseFields_ne_nil hname)

end BoundFields

/-- Every operation of a description whose named schemas are resolved is bound as `BoundFields`
says.  So every interface that is emitted for the description has a property. -/
theorem bound_fields {api : Api} {r : Resolution} (hr : resolveSchemas api.schemas = .ok r)
    {business : Business} {ops : List BoundOperation}
    (hops : (bindOperations api r.table business).result = .ok ops) :
    (∀ o ∈ ops, ∃ item op, api.paths.get? o.url = some item ∧ item.operation o.method = some op ∧
      BoundFields api item op o) ∧
    ∀ name policy, ∀ i ∈ interfacesOf name policy ops, i.properties ≠ [] := by
  have hbound : ∀ o ∈ ops, ∃ item op, api.paths.get? o.url = some item ∧
      item.operation o.method = some op ∧ BoundFields api item op o := by
    intro o ho
    obtain ⟨url, item, method, op, hitem, hop, hbound⟩ :=
      exists_operation (Noting.yields_of_result hops) ho
    have hfields := BoundFields.of_bindOperation (resolveSchemas_unplaced hr) hbound
    obtain ⟨_, _, _, _, _, _, _, _, rfl⟩ := Binding.exists_bound hbound
    exact ⟨item, op, hitem, hop, hfields⟩
  refine ⟨hbound, ?_⟩
  intro name policy i hi
  obtain ⟨o, ho, hi⟩ := List.mem_flatMap.mp hi
  obtain ⟨item, op, _, _, hfields⟩ := hbound o ho
  exact hfields.properties_ne_nil hi

/-- A path with a parameter for its operations.  Both have a body, which one of them may not have. -/
def shelter : Api where
  info := { title := "Shelter", version := "1" }
  paths := Table.ofList [("/pets/{id}", {
    parameters := [.item { name := "id", location := .path, required := true }]
    operation := fun
      | .get => some {
        requestBody := some (.item { content := Table.ofList [
          ("application/json", some (.ref "#/components/schemas/Pet"))] })
        responses := Table.ofList [("200", .ref "#/components/responses/Pets")] }
      | .post => some {
        requestBody := some (.item { content := Table.ofList [
          ("application/json", some (.ref "#/components/schemas/Pet"))] }) }
      | _ => none })]
  components := {
    schemas := Table.ofList [
      ("Pet", .inline { properties := [("owner", .ref "#/components/schemas/Owner")] }),
      ("Owner", .inline { properties := [("name", .inline { type := some (.single .string) })] })]
    responses := Table.ofList [("Pets", .item {
      schema := some (.inline {
        type := some (.single .array), items := some (.ref "#/components/schemas/Pet") }) })] }

/-- The keys and origins of parameters, of the body and of the response. -/
def BoundOperation.origins (o : BoundOperation) : List (List (String × Option Origin)) :=
  [o.parameters, o.requestBody, o.responses].map fun l => (l.getD []).map fun f => (f.key, f.origin)

/-- The shelter has fields from its path, in the body of the one request, and in the response. -/
theorem shelter_bound : ∃ r ops, resolveSchemas shelter.schemas = .ok r ∧
    (bindOperations shelter r.table {}).result = .ok ops ∧
    ops.map BoundOperation.origins = [
      [[("id", some .path)], [], [("owner", none)]],
      [[("id", some .path)], [("owner", some .requestBody)], []]] ∧
    (∀ o ∈ ops, ∃ item op, shelter.paths.get? o.url = some item ∧
      item.operation o.method = some op ∧ BoundFields shelter item op o) ∧
    ∀ i ∈ interfacesOf "default" {} ops, i.properties ≠ [] := by
  have hseen : ((resolveSchemas shelter.schemas).toOption.bind fun r =>
      (bindOperations shelter r.table {}).result.toOption.map (·.map BoundOperation.origins)) =
      some [
        [[("id", some .path)], [], [("owner", none)]],
        [[("id", some .path)], [("owner", some .requestBody)], []]] := by
    decide +kernel
  obtain ⟨r, ops, hr, hops, hseen⟩ := exists_bindOperations hseen
  obtain ⟨hbound, hproperties⟩ := bound_fields hr hops
  exact ⟨r, ops, hr, hops, hseen, hbound, hproperties "default" {}⟩

end ApiTypes
