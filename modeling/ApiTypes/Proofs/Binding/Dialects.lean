import ApiTypes.Proofs.Binding.Dialects.Parameters
import ApiTypes.Proofs.Binding.Steadiness

/-! # Operations in either dialect

The body of an operation has the same schema whether it is a parameter or stands beside them
(`bodySchema_toVersion3`), and a response the same whether its schema stands in its content or
alone (`bindResponse_toVersion3`).  So the operations of a description are bound to the same fields in
both dialects (`toVersion3_bound`). -/

namespace ApiTypes

variable {api : Api} {f : String → String}

namespace Binding

/-! ### Bodies -/

section bodies
variable {table : Table ResolvedSchema} {method : Method} {url : String}

theorem bodyRef?_redirect (s : Schema) : bodyRef? (s.redirect f) = (bodyRef? s).map f := by
  have hpath : ∀ o : Option Schema,
      (o.map (·.redirect f)).bind Schema.refPath? = (o.bind Schema.refPath?).map f := by
    intro o
    cases o with
    | none => rfl
    | some s => cases s <;> rfl
  cases s with
  | ref path => rfl
  | inline shape =>
      rw [Schema.redirect, Shape.redirect_eq]
      unfold bodyRef?
      dsimp only
      rw [List.head?_map, hpath, hpath]
      cases shape.allOf.head?.bind Schema.refPath? <;> rfl

/-- The fields of a schema do not depend on the paths of its references. -/
theorem namedFields_redirect (hf : KeepsNames f) (s : Schema) :
    Noting.Matches Eq (namedFields table s) (namedFields table (s.redirect f)) := by
  unfold namedFields
  rw [bodyRef?_redirect]
  cases bodyRef? s with
  | some path =>
      simp only [Option.map_some, hf path]
      refine (Noting.Matches.lift (refName path)).bind_eq fun name _ => ?_
      exact (schemaFields_steady name).matches_self
  | none =>
      simp only [Option.map_none, expand_redirect hf]
      refine (Noting.Matches.lift (expand (.finished table) s)).bind_eq fun e _ => ?_
      exact .pure rfl

theorem bindBody_redirect (hf : KeepsNames f) (schema : Option Schema) :
    Noting.Matches Eq (bindBody table method url schema)
      (bindBody table method url (schema.map (·.redirect f))) := by
  cases schema with
  | none => exact .pure rfl
  | some s =>
      rw [Option.map_some, bindBody, bindBody]
      by_cases hget : method = .get
      · rw [if_pos hget, if_pos hget]
        exact Noting.Matches.note_pure _ _ rfl
      · rw [if_neg hget, if_neg hget]
        refine (namedFields_redirect hf s).bind_eq fun fields _ => ?_
        cases fields with
        | some fields => exact .pure rfl
        | none => exact Noting.Matches.note_pure _ _ rfl

theorem bodyParameter?_eq {ofPath : List (RefOr Parameter)} {op : Operation}
    {declared : List Parameter} (h : Yields (collectParameters api ofPath op.parameters) declared) :
    op.bodyParameter? api ofPath = (declared.filter (·.location = .body)).getLast? := by
  unfold Operation.bodyParameter?
  rw [(collectParameters_steady ofPath op.parameters).result_of_yields h]
  rfl

/-- The body of an operation in version 3 has the schema of its last parameter in a body. -/
theorem bodySchema_toVersion3 {ofPath : List (RefOr Parameter)} {op : Operation}
    {declared : List Parameter} (h : Yields (collectParameters api ofPath op.parameters) declared) :
    bodySchema (api.toVersion3 f) (besidesBody f declared) (op.toVersion3 f api ofPath) =
      pure ((bodyParameterSchema declared).map (·.redirect f)) := by
  unfold bodySchema Operation.toVersion3 bodyParameterSchema
  rw [bodyParameter?_eq h]
  cases (declared.filter (·.location = .body)).getLast? with
  | some p => simp only [Option.map_some, requestSchema, RequestBody.jsonSchema_ofJson]; rfl
  | none =>
      have hnone : (besidesBody f declared).filter (·.location = .body) = [] := by
        apply List.filter_eq_nil_iff.mpr
        intro p hp
        obtain ⟨q, hq, rfl⟩ := List.mem_map.mp hp
        rw [Parameter.location_toVersion3]
        simpa using (List.mem_filter.mp hq).2
      simp only [Option.map_none, hnone]
      rfl

theorem responseFields_toVersion3 (hf : KeepsNames f) {r : Response} (hr : r.content = .empty) :
    Noting.Matches Eq (responseFields table method url r)
      (responseFields table method url (r.toVersion3 f)) := by
  unfold responseFields
  rw [Response.jsonSchema_toVersion3 hr]
  cases r.jsonSchema with
  | some s => exact namedFields_redirect hf s
  | none => exact Noting.Matches.note_pure _ _ rfl

theorem bindResponse_toVersion3 (hapi : api.IsVersion2) (hf : KeepsNames f) {op : Operation}
    (hop : op.responses.Holds fun _ r => r.Holds fun r => r.content = .empty)
    (ofPath : List (RefOr Parameter)) :
    Noting.Matches Eq (bindResponse api table method url op)
      (bindResponse (api.toVersion3 f) table method url (op.toVersion3 f api ofPath)) := by
  have hfound : successStatuses.findSome? (op.toVersion3 f api ofPath).responses.get? =
      (successStatuses.findSome? op.responses.get?).map (.mapBoth f (Response.toVersion3 f)) := by
    have hget : (op.toVersion3 f api ofPath).responses.get? =
        fun status => (op.responses.get? status).map (.mapBoth f (Response.toVersion3 f)) :=
      funext (Table.get?_map _ op.responses)
    rw [List.map_findSome?, hget]
    rfl
  rw [bindResponse_def, bindResponse_def, hfound]
  cases hr : successStatuses.findSome? op.responses.get? with
  | none => exact Noting.Matches.note_pure _ _ rfl
  | some r =>
      obtain ⟨status, _, hr⟩ := List.exists_of_findSome?_eq_some hr
      cases r with
      | item r => exact responseFields_toVersion3 hf (hop status _ hr r rfl)
      | ref path =>
          simp only [Option.map_some, RefOr.mapBoth, referredFields, hf path]
          refine (Noting.Matches.lift (refName path)).bind_eq fun name _ => ?_
          rw [hapi.findResponse_toVersion3]
          cases hfind : api.findResponse name with
          | none => exact (schemaFields_steady name).matches_self
          | some r =>
              exact responseFields_toVersion3 hf (hapi.content_of_findResponse hfind)

end bodies

/-! ### Operations -/

section operations
variable (hapi : api.IsVersion2) (hf : KeepsNames f)
include hapi hf

theorem bindOperation_toVersion3 (table : Table ResolvedSchema) (business : Business)
    {url : String} {item : PathItem} (hitem : api.paths.get? url = some item) {method : Method}
    {op : Operation} (hop : item.operation method = some op) :
    Noting.Matches Eq (bindOperation api table business url method item.parameters op)
      (bindOperation (api.toVersion3 f) table business url method
        (api.besidesBody f item.parameters) (op.toVersion3 f api item.parameters)) := by
  have hbody : op.requestBody = none := hapi.requestBodies url item hitem method op hop
  rw [bindOperation_eq, bindOperation_eq]
  refine (collectParameters_toVersion3 hapi hf item.parameters op.parameters).bind ?_
  rintro declared _ hdeclared _ rfl
  have hsent : (besidesBody f declared).filter (·.location ≠ .body) = besidesBody f declared := by
    apply List.filter_eq_self.mpr
    intro p hp
    obtain ⟨q, hq, rfl⟩ := List.mem_map.mp hp
    rw [Parameter.location_toVersion3]
    exact (List.mem_filter.mp hq).2
  rw [hsent, bodySchema_toVersion3 hdeclared]
  unfold besidesBody
  rw [List.mapM_map]
  simp only [Function.comp_def, bindParameter_toVersion3 hf]
  -- The steps agree one by one; the schema of the body alone is found in another place.
  refine (Noting.Matches.mapM fun p _ => Noting.Matches.lift (bindParameter table p)).bind_eq
    fun fields _ => ?_
  unfold bodySchema
  rw [hbody, pure_bind, pure_bind]
  refine (bindBody_redirect hf _).bind_eq fun requestBody _ => ?_
  have hcontents := hapi.contents url item hitem method op hop
  exact (bindResponse_toVersion3 hapi hf hcontents item.parameters).bind_eq fun responses _ => .pure rfl

end operations

end Binding

theorem PathItem.operations_toVersion3 (item : PathItem) : (item.toVersion3 f api).operations =
    item.operations.map fun (m, op) => (m, op.toVersion3 f api item.parameters) := by
  unfold operations
  rw [List.map_filterMap]
  apply List.filterMap_congr
  intro m _
  cases h : item.operation m <;> simp [toVersion3, h]

theorem Api.operations_toVersion3 : (api.toVersion3 f).operations =
    api.operations.map fun (url, ofPath, method, op) =>
      (url, api.besidesBody f ofPath, method, op.toVersion3 f api ofPath) := by
  change (api.paths.entries.map fun e => (e.1, e.2.toVersion3 f api)).flatMap _ = _
  unfold operations
  rw [List.flatMap_map, List.map_flatMap]
  apply List.flatMap_congr
  rintro ⟨url, item⟩ _
  dsimp only
  rw [PathItem.operations_toVersion3, List.map_map, List.map_map]
  rfl

/-- A description in version 2 and the one that says the same in version 3 resolve to the same
schemas, and over any table they bind their operations to the same fields and names, or fail with
the same error. -/
theorem toVersion3_bound (hapi : api.IsVersion2) (hf : KeepsNames f) :
    resolveSchemas (api.toVersion3 f).schemas = resolveSchemas api.schemas ∧
      ∀ table business, (bindOperations (api.toVersion3 f) table business).result =
        (bindOperations api table business).result := by
  rw [hapi.schemas_toVersion3]
  refine ⟨resolveSchemas_redirect hf, ?_⟩
  intro table business
  refine (Noting.Matches.result_eq ?_).symm
  rw [bindOperations_def, bindOperations_def, Api.operations_toVersion3, List.mapM_map]
  refine Noting.Matches.mapM ?_
  rintro ⟨url, ofPath, method, op⟩ hmem
  obtain ⟨item, hitem, hop, rfl⟩ := Api.exists_of_mem_operations hmem
  exact Binding.bindOperation_toVersion3 hapi hf table business hitem hop

/-- A description in version 2 in which a path and its operations have bodies, of which some are
shared. -/
def clinic : Api where
  swagger := some "2.0"
  info := { title := "Clinic", version := "1" }
  paths := Table.ofList [("/pets/{id}", {
    parameters := [
      .item { name := "id", location := .path, required := true, type := some (.single .integer) },
      .ref "#/parameters/Tags",
      .item { name := "visit", location := .body, schema := some (.ref "#/definitions/Visit") }]
    operation := fun
      | .get => some { responses := Table.ofList [("200", .ref "#/responses/Found")] }
      | .put => some {
        parameters := [.ref "#/parameters/Pet",
          .item { name := "tags", location := .query, type := some (.single .array)
                  items := some (.inline { type := some (.single .string) }) }]
        responses := Table.ofList [("201", .item { schema := some (.ref "#/definitions/Visit") })] }
      | _ => none })]
  definitions := Table.ofList [
    ("Visit", .inline { properties := [("pet", .ref "#/definitions/Pet")] }),
    ("Pet", .inline { properties := [("name", .inline { type := some (.single .string) })] })]
  parameters := Table.ofList [
    ("Tags", .item { name := "tags", location := .query, type := some (.single .string) }),
    ("Pet", .item { name := "pet", location := .body, schema := some (.ref "#/definitions/Pet") })]
  responses := Table.ofList [("Found", .item { schema := some (.ref "#/definitions/Pet") })]

theorem clinic_isVersion2 : clinic.IsVersion2 where
  components := rfl
  requestBodies := by
    refine Table.holds_iff.mpr ?_
    intro e he m op hop
    obtain rfl := List.mem_singleton.mp he
    cases m <;> cases hop <;> rfl
  contents := by
    have hone : ∀ (status : String) (r : RefOr Response), (r.Holds fun r => r.content = .empty) →
        (Table.ofList [(status, r)]).Holds fun _ r => r.Holds fun r => r.content = .empty := by
      intro status r hr
      refine Table.holds_iff.mpr ?_
      intro e he
      obtain rfl := List.mem_singleton.mp he
      exact hr
    refine Table.holds_iff.mpr ?_
    intro e he m op hop
    obtain rfl := List.mem_singleton.mp he
    cases m with
    | get =>
        obtain rfl := Option.some.inj hop
        exact hone _ _ fun _ h => nomatch h
    | put =>
        obtain rfl := Option.some.inj hop
        refine hone _ _ ?_
        rintro r ⟨⟩
        rfl
    | _ => cases hop
  sharedContents := by
    refine Table.holds_iff.mpr ?_
    intro e he r hr
    obtain rfl := List.mem_singleton.mp he
    obtain rfl := Option.some.inj hr
    rfl

/-- The clinic has the same requests in version 3, with its references moved. -/
theorem clinic_bound : clinic.IsVersion2 ∧ KeepsNames movedRef ∧
    ∃ r ops, resolveSchemas clinic.schemas = .ok r ∧
      (bindOperations clinic r.table {}).result = .ok ops ∧
      ops.map (fun o => o.requestFields.map fun f => (f.key, f.type)) =
        [[("id", .primitive .number), ("tags", .primitive .string)],
          [("id", .primitive .number), ("tags", .array (.primitive .string)),
            ("name", .primitive .string)]] ∧
      resolveSchemas (clinic.toVersion3 movedRef).schemas = .ok r ∧
      (bindOperations (clinic.toVersion3 movedRef) r.table {}).result = .ok ops := by
  have hfields : ((resolveSchemas clinic.schemas).toOption.bind fun r =>
      (bindOperations clinic r.table {}).result.toOption.map
        (·.map fun o => o.requestFields.map fun f => (f.key, f.type))) =
        some [[("id", .primitive .number), ("tags", .primitive .string)],
          [("id", .primitive .number), ("tags", .array (.primitive .string)),
            ("name", .primitive .string)]] := by
    decide +kernel
  obtain ⟨r, ops, hr, hops, hfields⟩ := exists_bindOperations hfields
  obtain ⟨hresolved, hbound⟩ := toVersion3_bound clinic_isVersion2 keepsNames_movedRef
  exact ⟨clinic_isVersion2, keepsNames_movedRef, r, ops, hr, hops, hfields, hresolved.trans hr,
    (hbound r.table {}).trans hops⟩

end ApiTypes
