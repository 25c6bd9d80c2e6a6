import ApiTypes.Proofs.Binding.Parameters
import ApiTypes.Proofs.Tables
import ApiTypes.Resolution.Schemas

/-! # Bound operations, opened

A bound operation comes of one that is declared (`exists_operation`), and is made of the fields of
its parameters, those of its body and those of its response (`exists_bound`).  No two are declared at
one place (`Api.nodup_places`). -/

namespace ApiTypes

theorem Method.mem_all (m : Method) : m ∈ Method.all := by cases m <;> decide

theorem PathItem.mem_operations_iff {item : PathItem} {method : Method} {op : Operation} :
    (method, op) ∈ item.operations ↔ item.operation method = some op := by
  unfold operations
  rw [List.mem_filterMap]
  constructor
  · rintro ⟨m, _, h⟩
    obtain ⟨op', hop, heq⟩ := Option.map_eq_some_iff.mp h
    obtain ⟨rfl, rfl⟩ := Prod.mk.inj heq
    exact hop
  · intro h
    exact ⟨method, Method.mem_all method, by rw [h]; rfl⟩

namespace Binding

variable {api : Api} {table : Table ResolvedSchema} {business : Business}

/-- The parameters that are sent beside a body. -/
def sent (api : Api) (ofPath ofOperation : List (RefOr Parameter)) : List Parameter :=
  (collected api ofPath ofOperation).filter (·.location ≠ .body)

theorem getD_nonEmpty {α : Type} (l : List α) : (nonEmpty l).getD [] = l := by
  cases l <;> rfl

theorem key_origin_of_bindParameter {p : Parameter} {f : Field} (h : bindParameter table p = .ok f) :
    f.key = p.name ∧ f.origin = some (originOf p.location) := by
  unfold bindParameter at h
  cases hschema : p.effectiveSchema with
  | some s =>
      rw [hschema] at h
      obtain ⟨e, _, h⟩ := bind_eq_ok.mp h
      obtain rfl := Except.ok.inj h
      exact ⟨rfl, rfl⟩
  | none =>
      rw [hschema] at h
      obtain rfl := Except.ok.inj h
      exact ⟨rfl, rfl⟩

/-! ### Bodies -/

theorem schemaFields_eq {name : String} {fields : Option (List Field)}
    (h : Yields (schemaFields table name) fields) :
    fields = ((table.get? name).bind ResolvedSchema.properties).bind nonEmpty := by
  unfold schemaFields at h
  split at h
  · next heq => rw [← yields_pure_iff.mp h, heq]
  · next heq =>
    obtain ⟨_, _, h⟩ := h.bind
    rw [← yields_pure_iff.mp h, heq]

theorem bindBody_cases {method : Method} {url : String} {schema : Option Schema}
    {body : Option (List Field)} (h : Yields (bindBody table method url schema) body) :
    body = none ∨ ∃ s fields, schema = some s ∧ method ≠ .get ∧
      Yields (namedFields table s) (some fields) ∧
      body = some (fields.map ({ · with origin := some .requestBody })) := by
  cases schema with
  | none => exact Or.inl (yields_pure_iff.mp h).symm
  | some s =>
      rw [bindBody] at h
      by_cases hget : method = .get
      · rw [if_pos hget] at h
        obtain ⟨_, _, h⟩ := h.bind
        exact Or.inl (yields_pure_iff.mp h).symm
      rw [if_neg hget] at h
      obtain ⟨fields, hfields, h⟩ := h.bind
      cases fields with
      | none =>
          obtain ⟨_, _, h⟩ := h.bind
          exact Or.inl (yields_pure_iff.mp h).symm
      | some fields =>
          exact Or.inr ⟨s, fields, rfl, hget, hfields, (yields_pure_iff.mp h).symm⟩

/-! ### Responses -/

/-- The fields of a response. -/
def responseFields (table : Table ResolvedSchema) (method : Method) (url : String) (r : Response) :
    Noting InvalidRef (Option (List Field)) :=
  match r.jsonSchema with
  | some s => namedFields table s
  | none => do
    Noting.note (.noJson method url)
    return none

/-- The fields of a response that stands in its place or is referred to. -/
def referredFields (api : Api) (table : Table ResolvedSchema) (method : Method) (url : String) :
    RefOr Response → Noting InvalidRef (Option (List Field))
  | .item r => responseFields table method url r
  | .ref path => do
    let name ← refName path
    match api.findResponse name with
    | some r => responseFields table method url r
    | none => schemaFields table name

theorem bindResponse_def (method : Method) (url : String) (op : Operation) :
    bindResponse api table method url op = (
    match successStatuses.findSome? op.responses.get? with
    | none => do
      Noting.note (.noSuccess method url)
      return none
    | some r => referredFields api table method url r) := by
  unfold bindResponse
  cases successStatuses.findSome? op.responses.get? with
  | none => rfl
  | some r => cases r <;> rfl

/-! ### Operations -/

/-- The schema of the body: that of the declared one, else that of the last parameter in a body. -/
def bodySchema (api : Api) (declared : List Parameter) (op : Operation) :
    Noting InvalidRef (Option Schema) :=
  match op.requestBody with
  | some b => requestSchema api b
  | none => pure (bodyParameterSchema declared)

section
variable {url : String} {method : Method} {ofPath : List (RefOr Parameter)} {op : Operation}

theorem bindOperation_eq : bindOperation api table business url method ofPath op = (do
    let declared ← collectParameters api ofPath op.parameters
    let fields ← (declared.filter (·.location ≠ .body)).mapM fun p =>
      (bindParameter table p : Noting InvalidRef Field)
    let schema ← bodySchema api declared op
    let requestBody ← bindBody table method url schema
    let responses ← bindResponse api table method url op
    return {
      url, method, summary := summaryOf op, tag := op.tags.head?.getD "default",
      requestTypeName :=
        if (nonEmpty fields).isSome || requestBody.isSome then
          some (typeName method url .request business)
        else none,
      responseTypeName :=
        if responses.isSome then some (typeName method url .response business) else none,
      parameters := nonEmpty fields, requestBody, responses }) := by
  unfold bindOperation bodySchema
  cases op.requestBody <;> rfl

theorem exists_bound {o : BoundOperation}
    (h : Yields (bindOperation api table business url method ofPath op) o) :
    ∃ fields schema requestBody responses,
      List.Forall₂ (fun p f => bindParameter table p = .ok f) (sent api ofPath op.parameters)
        fields ∧
      Yields (bodySchema api (collected api ofPath op.parameters) op) schema ∧
      Yields (bindBody table method url schema) requestBody ∧
      Yields (bindResponse api table method url op) responses ∧
      o = {
        url, method, summary := summaryOf op, tag := op.tags.head?.getD "default",
        requestTypeName :=
          if (nonEmpty fields).isSome || requestBody.isSome then
            some (typeName method url .request business)
          else none,
        responseTypeName :=
          if responses.isSome then some (typeName method url .response business) else none,
        parameters := nonEmpty fields, requestBody, responses } := by
  rw [bindOperation_eq] at h
  obtain ⟨declared, hdeclared, h⟩ := h.bind
  obtain rfl := collectParameters_eq hdeclared
  obtain ⟨fields, hfields, h⟩ := h.bind
  obtain ⟨schema, hschema, h⟩ := h.bind
  obtain ⟨requestBody, hbody, h⟩ := h.bind
  obtain ⟨responses, hresponses, h⟩ := h.bind
  exact ⟨fields, schema, requestBody, responses,
    hfields.mapM.imp fun _ _ => Noting.eq_ok_of_yields_lift, hschema, hbody, hresponses,
    (yields_pure_iff.mp h).symm⟩

end

end Binding

/-! ### All operations -/

/-- The operations of a description, path by path, with the parameters of their paths. -/
def Api.operations (api : Api) : List (String × List (RefOr Parameter) × Method × Operation) :=
  api.paths.entries.flatMap fun (url, item) =>
    item.operations.map fun (method, op) => (url, item.parameters, method, op)

theorem bindOperations_def (api : Api) (table : Table ResolvedSchema) (business : Business) :
    bindOperations api table business = api.operations.mapM fun (url, ofPath, method, op) =>
      Binding.bindOperation api table business url method ofPath op := rfl

theorem Api.exists_of_mem_operations {api : Api} {url : String} {ofPath : List (RefOr Parameter)}
    {method : Method} {op : Operation} (h : (url, ofPath, method, op) ∈ api.operations) :
    ∃ item, api.paths.get? url = some item ∧ item.operation method = some op ∧
      ofPath = item.parameters := by
  obtain ⟨⟨url', item⟩, hitem, h⟩ := List.mem_flatMap.mp h
  obtain ⟨⟨method', op'⟩, hop, heq⟩ := List.mem_map.mp h
  simp only [Prod.mk.injEq] at heq
  obtain ⟨rfl, rfl, rfl, rfl⟩ := heq
  exact ⟨item, Table.get?_of_mem hitem, PathItem.mem_operations_iff.mp hop, rfl⟩

/-- No operation is listed twice under one path and method. -/
theorem Api.nodup_places (api : Api) : (api.operations.map fun e => (e.1, e.2.2.1)).Nodup := by
  have hplaces : ∀ (url : String) (item : PathItem),
      (item.operations.map fun (method, op) => (url, item.parameters, method, op)).map
        (fun e => (e.1, e.2.2.1)) =
      Method.all.filterMap fun m => (item.operation m).map fun _ => (url, m) := by
    intro url item
    unfold PathItem.operations
    rw [List.map_map, List.map_filterMap]
    congr 1
    funext m
    cases item.operation m <;> rfl
  unfold operations
  rw [List.map_flatMap, List.nodup_flatMap]
  constructor
  · rintro ⟨url, item⟩ _
    simp only [hplaces]
    refine List.Nodup.filterMap ?_ (by decide)
    intro m m' place hm hm'
    obtain ⟨_, _, rfl⟩ := Option.map_eq_some_iff.mp hm
    obtain ⟨_, _, heq⟩ := Option.map_eq_some_iff.mp hm'
    exact (Prod.mk.inj heq).2.symm
  · refine (List.pairwise_map.mp api.paths.nodup).imp ?_
    rintro ⟨url, item⟩ ⟨url', item'⟩ hne place hm hm'
    simp only [hplaces] at hm hm'
    obtain ⟨_, _, hm⟩ := List.mem_filterMap.mp hm
    obtain ⟨_, _, hm'⟩ := List.mem_filterMap.mp hm'
    obtain ⟨_, _, rfl⟩ := Option.map_eq_some_iff.mp hm
    obtain ⟨_, _, heq⟩ := Option.map_eq_some_iff.mp hm'
    exact hne (Prod.mk.inj heq).1.symm

/-- Where something is seen of the bound operations, they are bound over the resolved schemas. -/
theorem exists_bindOperations {α : Type} {api : Api} {business : Business}
    {view : List BoundOperation → α} {seen : α}
    (h : ((resolveSchemas api.schemas).toOption.bind fun r =>
      (bindOperations api r.table business).result.toOption.map view) = some seen) :
    ∃ r ops, resolveSchemas api.schemas = .ok r ∧
      (bindOperations api r.table business).result = .ok ops ∧ view ops = seen := by
  obtain ⟨r, hr, h⟩ := Option.bind_eq_some_iff.mp h
  obtain ⟨ops, hops, hview⟩ := Option.map_eq_some_iff.mp h
  exact ⟨r, ops, toOption_eq_some_iff.mp hr, toOption_eq_some_iff.mp hops, hview⟩

theorem exists_operation {api : Api} {table : Table ResolvedSchema} {business : Business}
    {ops : List BoundOperation} (h : Yields (bindOperations api table business) ops)
    {o : BoundOperation} (ho : o ∈ ops) :
    ∃ url item method op, api.paths.get? url = some item ∧ item.operation method = some op ∧
      Yields (Binding.bindOperation api table business url method item.parameters op) o := by
  rw [bindOperations_def] at h
  obtain ⟨⟨url, ofPath, method, op⟩, hmem, hbound⟩ := h.exists_of_mem ho
  obtain ⟨item, hitem, hop, rfl⟩ := Api.exists_of_mem_operations hmem
  exact ⟨url, item, method, op, hitem, hop, hbound⟩

end ApiTypes
