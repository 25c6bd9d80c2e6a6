import ApiTypes.Proofs.Binding.Related

/-! # Shared parts in the place of references

A reference in an operation or a path to an item that is shared is bound as the item is
(`bindOperations_inlined`).  An entry that is itself a reference is not followed: a parameter that
refers to it is left out, a body is empty, and a response has the schema of that name.

Main definitions: `Api.sharedParameter?`, `Api.sharedBody?`, `Api.sharedResponse?`, `RefOr.Inlined`,
`Api.Inlined`. -/

namespace ApiTypes

open Noting (Matches)

/-! ### Entries -/

namespace Api

/-- The shared parameter that a path refers to. -/
def sharedParameter? (api : Api) (path : String) : Option (RefOr Parameter) :=
  (refName path).toOption.bind (declared? api.components.parameters api.parameters)

/-- The shared body that a path refers to. -/
def sharedBody? (api : Api) (path : String) : Option (RefOr RequestBody) :=
  (refName path).toOption.bind api.components.requestBodies.get?

/-- The shared response that a path refers to. -/
def sharedResponse? (api : Api) (path : String) : Option (RefOr Response) :=
  (refName path).toOption.bind (declared? api.components.responses api.responses)

variable {api : Api} {path : String}

theorem exists_of_sharedParameter? {r : RefOr Parameter} (h : api.sharedParameter? path = some r) :
    ∃ name, refName path = .ok name ∧ api.findParameter name = r.item? := by
  obtain ⟨name, hname, hr⟩ := Option.bind_eq_some_iff.mp h
  refine ⟨name, toOption_eq_some_iff.mp hname, ?_⟩
  rw [findParameter, hr, Option.bind_some]

theorem exists_of_sharedBody? {r : RefOr RequestBody} (h : api.sharedBody? path = some r) :
    ∃ name, refName path = .ok name ∧ api.findRequestBody name = r.item? := by
  obtain ⟨name, hname, hr⟩ := Option.bind_eq_some_iff.mp h
  refine ⟨name, toOption_eq_some_iff.mp hname, ?_⟩
  rw [findRequestBody, hr, Option.bind_some]

theorem exists_of_sharedResponse? {r : RefOr Response} (h : api.sharedResponse? path = some r) :
    ∃ name, refName path = .ok name ∧ api.findResponse name = r.item? := by
  obtain ⟨name, hname, hr⟩ := Option.bind_eq_some_iff.mp h
  refine ⟨name, toOption_eq_some_iff.mp hname, ?_⟩
  rw [findResponse, hr, Option.bind_some]

end Api

/-! ### Items in the place of references -/

/-- The same, or the shared item in the place of a reference to it. -/
inductive RefOr.Replaced {α : Type} (shared? : String → Option (RefOr α)) :
    RefOr α → RefOr α → Prop
  | same (r : RefOr α) : Replaced shared? r r
  | entry {path : String} {a : α} (h : shared? path = some (.item a)) :
      Replaced shared? (.ref path) (.item a)

/-- The same with the shared item in the place of a reference; in the place of a reference to an
entry that is a reference, what is given instead. -/
inductive RefOr.Inlined {α : Type} (shared? : String → Option (RefOr α))
    (instead : String → α) : RefOr α → RefOr α → Prop
  | replaced {r r' : RefOr α} (h : r.Replaced shared? r') : Inlined shared? instead r r'
  | unfollowed {path other : String} (h : shared? path = some (.ref other)) :
      Inlined shared? instead (.ref path) (.item (instead path))

/-- Parameters with shared items in the place of references; one that refers to an entry that is a
reference may be left out. -/
inductive ParametersInlined (api : Api) : List (RefOr Parameter) → List (RefOr Parameter) → Prop
  | nil : ParametersInlined api [] []
  | cons {r r' : RefOr Parameter} {l l' : List (RefOr Parameter)}
      (hr : r.Replaced api.sharedParameter? r') (hl : ParametersInlined api l l') :
      ParametersInlined api (r :: l) (r' :: l')
  | unfollowed {path other : String} {l l' : List (RefOr Parameter)}
      (h : api.sharedParameter? path = some (.ref other)) (hl : ParametersInlined api l l') :
      ParametersInlined api (.ref path :: l) l'

/-- An operation with some of its references inlined. -/
structure Operation.Inlined (api : Api) (op op' : Operation) : Prop where
  parameters : ParametersInlined api op.parameters op'.parameters
  requestBody : Option.Rel (RefOr.Inlined api.sharedBody? fun _ => {}) op.requestBody op'.requestBody
  responses : op.responses.Related
    (RefOr.Inlined api.sharedResponse? fun path => { schema := some (.ref path) }) op'.responses
  others : op' = { op with
    parameters := op'.parameters, requestBody := op'.requestBody, responses := op'.responses }

/-- Paths with some of the references in them inlined. -/
def Api.Inlined (api : Api) (paths : Table PathItem) : Prop :=
  api.paths.Related (PathItem.Related (ParametersInlined api) (Operation.Inlined api)) paths

namespace Binding

variable {api : Api} {table : Table ResolvedSchema} {method : Method} {url : String}

/-! ### Parameters -/

theorem lookupParameter_replaced {r r' : RefOr Parameter} (h : r.Replaced api.sharedParameter? r') :
    lookupParameter api r = lookupParameter api r' := by
  cases h with
  | same => rfl
  | entry h =>
      obtain ⟨name, hname, hfind⟩ := Api.exists_of_sharedParameter? h
      exact lookupParameter_of_find hname hfind

theorem lookupParameter_unfollowed {path other : String}
    (h : api.sharedParameter? path = some (.ref other)) :
    lookupParameter api (.ref path) = (do
      Noting.note (.parameterMissing path)
      return none) := by
  obtain ⟨name, hname, hfind⟩ := Api.exists_of_sharedParameter? h
  rw [lookupParameter_ref, hname, Noting.lift_ok_bind, hfind]
  rfl

theorem mapM_lookupParameter_inlined {refs refs' : List (RefOr Parameter)}
    (h : ParametersInlined api refs refs') :
    Matches (fun l l' => l.filterMap id = l'.filterMap id) (refs.mapM (lookupParameter api))
      (refs'.mapM (lookupParameter api)) := by
  induction h with
  | nil => exact .pure rfl
  | cons hr _ ih =>
      rw [List.mapM_cons, List.mapM_cons, lookupParameter_replaced hr]
      refine (lookupParameter_steady _).matches_self.bind_eq fun o _ => ?_
      refine ih.bind fun l l' _ _ hl => .pure ?_
      rw [List.filterMap_cons, List.filterMap_cons, hl]
  | @unfollowed _ _ _ l' h _ ih =>
      rw [List.mapM_cons, lookupParameter_unfollowed h, bind_assoc,
        ← bind_pure (List.mapM (lookupParameter api) l')]
      exact Matches.note_bind _ (ih.bind fun l l' _ _ hl => .pure hl)

theorem foldlM_collectOne_inlined {refs refs' : List (RefOr Parameter)}
    (h : ParametersInlined api refs refs') (kept : List Parameter) :
    Matches Eq (refs.foldlM (collectOne api) kept) (refs'.foldlM (collectOne api) kept) := by
  induction h generalizing kept with
  | nil => exact .pure rfl
  | cons hr _ ih =>
      rw [List.foldlM_cons, List.foldlM_cons, collectOne, collectOne, lookupParameter_replaced hr,
        bind_assoc, bind_assoc]
      refine (lookupParameter_steady _).matches_self.bind_eq fun o _ => ?_
      cases o with
      | some p => exact ih _
      | none => exact ih kept
  | unfollowed h _ ih =>
      rw [List.foldlM_cons, collectOne, lookupParameter_unfollowed h, bind_assoc, bind_assoc]
      exact Matches.note_bind _ (ih kept)

/-- The same parameters are collected. -/
theorem collectParameters_inlined {ofPath ofPath' ofOperation ofOperation' : List (RefOr Parameter)}
    (hpath : ParametersInlined api ofPath ofPath')
    (hoperation : ParametersInlined api ofOperation ofOperation') :
    Matches Eq (collectParameters api ofPath ofOperation)
      (collectParameters api ofPath' ofOperation') := by
  rw [collectParameters_def, collectParameters_def]
  refine (mapM_lookupParameter_inlined hpath).bind fun l l' _ _ hl => ?_
  rw [hl]
  exact foldlM_collectOne_inlined hoperation _

/-! ### Bodies and responses -/

theorem requestSchema_of_find {path name : String} (hname : refName path = .ok name) :
    requestSchema api (.ref path) =
      match api.findRequestBody name with
      | some b => pure b.jsonSchema
      | none => do
        Noting.note (.bodyMissing path)
        return none := by
  unfold requestSchema
  dsimp only
  rw [hname]
  rfl

theorem requestSchema_inlined {r r' : RefOr RequestBody}
    (h : r.Inlined api.sharedBody? (fun _ => {}) r') :
    Matches Eq (requestSchema api r) (requestSchema api r') := by
  cases h with
  | replaced h =>
      cases h with
      | same => exact (requestSchema_steady (List.Subset.refl _)).matches_self
      | entry h =>
          obtain ⟨name, hname, hfind⟩ := Api.exists_of_sharedBody? h
          rw [requestSchema_of_find hname, hfind]
          exact .pure rfl
  | unfollowed h =>
      obtain ⟨name, hname, hfind⟩ := Api.exists_of_sharedBody? h
      rw [requestSchema_of_find hname, hfind]
      exact Matches.note_bind _ (.pure rfl)

theorem referredFields_of_find {path name : String} (hname : refName path = .ok name) :
    referredFields api table method url (.ref path) =
      match api.findResponse name with
      | some r => responseFields table method url r
      | none => schemaFields table name := by
  unfold referredFields
  dsimp only
  rw [hname]
  rfl

theorem namedFields_ref (path : String) : namedFields table (.ref path) = (do
    let name ← refName path
    schemaFields table name) := rfl

theorem referredFields_inlined {r r' : RefOr Response}
    (h : r.Inlined api.sharedResponse? (fun path => { schema := some (.ref path) }) r') :
    Matches Eq (referredFields api table method url r) (referredFields api table method url r') := by
  cases h with
  | replaced h =>
      cases h with
      | same => exact referredFields_matches_self _
      | entry h =>
          obtain ⟨name, hname, hfind⟩ := Api.exists_of_sharedResponse? h
          rw [referredFields_of_find hname, hfind]
          exact (responseFields_steady (List.Subset.refl _)).matches_self
  | @unfollowed path _ h =>
      obtain ⟨name, hname, hfind⟩ := Api.exists_of_sharedResponse? h
      rw [referredFields_of_find hname, hfind]
      change Matches Eq (schemaFields table name) (namedFields table (.ref path))
      rw [namedFields_ref, hname, Noting.lift_ok_bind]
      exact (schemaFields_steady name).matches_self

/-! ### Operations -/

theorem bodySchema_inlined {op op' : Operation} (hop : op.Inlined api op') (ps : List Parameter) :
    Matches Eq (bodySchema api ps op) (bodySchema api ps op') := by
  have hbody := hop.requestBody
  unfold bodySchema
  generalize op.requestBody = o at hbody ⊢
  generalize op'.requestBody = o' at hbody ⊢
  cases hbody with
  | some h => exact requestSchema_inlined h
  | none => exact .pure rfl

theorem bindOperation_inlined {ofPath ofPath' : List (RefOr Parameter)} {op op' : Operation}
    (hpath : ParametersInlined api ofPath ofPath') (hop : op.Inlined api op') (business : Business) :
    Matches Eq (bindOperation api table business url method ofPath op)
      (bindOperation api table business url method ofPath' op') := by
  refine bindOperation_related (R := Eq) ?_ ?_ (collectParameters_inlined hpath hop.parameters)
    ?_ ?_ (bindResponse_related hop.responses fun _ _ => referredFields_inlined)
  · rw [hop.others]
    rfl
  · rw [hop.others]
  · rintro ps _ rfl
    exact Matches.mapM fun p _ => .lift _
  · rintro ps _ rfl
    exact (bodySchema_inlined hop ps).bind_eq fun schema _ => bindBody_matches_self schema

end Binding

/-- A reference to a shared item is bound as the item is; where the entry is a reference itself, a
parameter is left out, a body is empty and a response has the schema of the name. -/
theorem bindOperations_inlined {api : Api} {paths : Table PathItem} (h : api.Inlined paths)
    (table : Table ResolvedSchema) (business : Business) :
    (bindOperations { api with paths := paths } table business).result =
      (bindOperations api table business).result := by
  have hbound : Matches Eq (bindOperations api table business)
      (bindOperations { api with paths := paths } table business) := by
    refine bindOperations_related h ?_
    intro url method ofPath ofPath' op op' hpath hop
    exact Binding.bindOperation_inlined hpath hop business
  exact hbound.result_eq.symm

/-- A branch of a library. -/
def branch : Parameter where
  name := "branch"
  location := .query
  schema := some (.inline { type := some (.single .string) })

/-- The lending of a library, with paths that may refer to what its operations share: a branch, a
desk that refers to the branch, a loan, and a listing that refers to a response and is the name of a
schema as well. -/
def lending (paths : Table PathItem) : Api where
  openapi := some "3.0.0"
  info := { title := "Library", version := "1" }
  paths := paths
  components := {
    schemas := Table.ofList [
      ("Listed", .inline { properties := [("title", .inline { type := some (.single .string) })] })]
    parameters := Table.ofList [
      ("Desk", .ref "#/components/parameters/Branch"),
      ("Branch", .item branch)]
    requestBodies := Table.ofList [
      ("Loan", .item {
        content := Table.ofList [(Content.jsonType, some (.ref "#/components/schemas/Listed"))] })]
    responses := Table.ofList [
      ("Listed", .ref "#/components/responses/Other"), ("Other", .item {})] }

/-- The paths of the library, every operation of which refers to what is shared. -/
def lendingPaths : Table PathItem := Table.ofList [("/loans", {
  parameters := [.ref "#/components/parameters/Branch", .ref "#/components/parameters/Desk"]
  operation := fun
    | .post => some {
      requestBody := some (.ref "#/components/requestBodies/Loan")
      responses := Table.ofList [("200", .ref "#/components/responses/Listed")] }
    | _ => none })]

/-- The same paths without references to parameters, bodies and responses. -/
def inlinedPaths : Table PathItem := Table.ofList [("/loans", {
  parameters := [.item branch]
  operation := fun
    | .post => some {
      requestBody := some (.item {
        content := Table.ofList [(Content.jsonType, some (.ref "#/components/schemas/Listed"))] })
      responses := Table.ofList [
        ("200", .item { schema := some (.ref "#/components/responses/Listed") })] }
    | _ => none })]

theorem lendingPaths_inlined : (lending lendingPaths).Inlined inlinedPaths := by
  refine .cons ⟨rfl, ?_, ?_⟩ .nil
  · exact .cons (.entry rfl) (.unfollowed rfl .nil)
  · intro m
    cases m with
    | post =>
        refine .some ⟨.nil, ?_, ?_, rfl⟩
        · exact .some (.replaced (.entry rfl))
        · exact .cons ⟨rfl, .unfollowed rfl⟩ .nil
    | _ => exact .none

/-- The library is bound to the same fields with its shared parts and without references to them. -/
theorem lending_bound : (lending lendingPaths).Inlined inlinedPaths ∧
    ∃ r ops, resolveSchemas (lending lendingPaths).schemas = .ok r ∧
      (bindOperations (lending lendingPaths) r.table {}).result = .ok ops ∧
      ops.map (fun o => (o.requestFields.map Field.key, o.responseFields.map Field.key)) =
        [(["branch", "title"], ["title"])] ∧
      (bindOperations (lending inlinedPaths) r.table {}).result = .ok ops := by
  have hfields : ((resolveSchemas (lending lendingPaths).schemas).toOption.bind fun r =>
      (bindOperations (lending lendingPaths) r.table {}).result.toOption.map
        (·.map fun o => (o.requestFields.map Field.key, o.responseFields.map Field.key))) =
        some [(["branch", "title"], ["title"])] := by decide +kernel
  obtain ⟨r, ops, hr, hops, hfields⟩ := exists_bindOperations hfields
  exact ⟨lendingPaths_inlined, r, ops, hr, hops, hfields,
    (bindOperations_inlined lendingPaths_inlined r.table {}).trans hops⟩

/-- Loans that are asked for with a parameter. -/
def loansBy (parameter : RefOr Parameter) : Table PathItem := Table.ofList [("/loans", {
  operation := fun
    | .get => some { parameters := [parameter] }
    | _ => none })]

/-- The desk is declared to be the branch, but what refers to the desk is not bound as what refers to
the branch. -/
theorem desk_unfollowed :
    (lending .empty).sharedParameter? "#/components/parameters/Desk" =
      some (.ref "#/components/parameters/Branch") ∧
    ∃ ops ops', (bindOperations (lending (loansBy (.ref "#/components/parameters/Desk")))
        .empty {}).result = .ok ops ∧
      (bindOperations (lending (loansBy (.ref "#/components/parameters/Branch")))
        .empty {}).result = .ok ops' ∧
      ops.map (·.requestFields.map Field.key) = [[]] ∧
      ops'.map (·.requestFields.map Field.key) = [["branch"]] := by
  have hdesk : (bindOperations (lending (loansBy (.ref "#/components/parameters/Desk")))
      .empty {}).result.toOption.map (·.map (·.requestFields.map Field.key)) = some [[]] := by
    decide +kernel
  have hbranch : (bindOperations (lending (loansBy (.ref "#/components/parameters/Branch")))
      .empty {}).result.toOption.map (·.map (·.requestFields.map Field.key)) =
        some [["branch"]] := by
    decide +kernel
  obtain ⟨ops, hops, hkeys⟩ := Option.map_eq_some_iff.mp hdesk
  obtain ⟨ops', hops', hkeys'⟩ := Option.map_eq_some_iff.mp hbranch
  exact ⟨rfl, ops, ops', toOption_eq_some_iff.mp hops, toOption_eq_some_iff.mp hops', hkeys,
    hkeys'⟩

end ApiTypes
