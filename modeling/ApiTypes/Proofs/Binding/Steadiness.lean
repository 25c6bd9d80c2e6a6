import ApiTypes.Proofs.Binding.References

/-! # Binding depends on no notes

Binding an operation ends in the same whatever was noted before it, and where it fails, it fails for
an invalid reference of the operation, its path or the description (`bindOperation_steady`).
References are read in the parameters, the body and the response; each of these fails for one of its
own or of what it is looked up to be. -/

namespace ApiTypes

open Noting (Steady)

variable {api : Api} {table : Table ResolvedSchema} {refs : List String}

theorem refName_steady {path : String} (h : path ∈ refs) :
    Steady (InvalidRef.IsIn refs) (liftM (refName path) : Noting InvalidRef String) :=
  .lift fun _ he => isIn_of_refName he h

namespace Binding

/-! ### Parameters -/

section parameters
variable {ofPath ofOperation : List (RefOr Parameter)}

theorem lookupParameter_steady (r : RefOr Parameter) :
    Steady (InvalidRef.IsIn (r.refs Parameter.refs)) (lookupParameter api r) := by
  cases r with
  | item p => exact .pure (some p)
  | ref path =>
      rw [lookupParameter_ref]
      refine (refName_steady List.mem_cons_self).bind fun name _ => ?_
      cases api.findParameter name with
      | some p => exact .pure (some p)
      | none => exact .note_pure _ none

theorem collectParameters_steady (ofPath ofOperation : List (RefOr Parameter)) :
    Steady (InvalidRef.IsIn ((ofPath ++ ofOperation).flatMap (RefOr.refs Parameter.refs)))
      (collectParameters api ofPath ofOperation) := by
  have hlookup : ∀ r ∈ ofPath ++ ofOperation,
      Steady (InvalidRef.IsIn ((ofPath ++ ofOperation).flatMap (RefOr.refs Parameter.refs)))
        (lookupParameter api r) :=
    fun r hr => (lookupParameter_steady r).mono fun e he =>
      he.mono fun path hpath => List.mem_flatMap.mpr ⟨r, hr, hpath⟩
  rw [collectParameters_def]
  refine (Steady.mapM fun r hr => hlookup r (List.mem_append_left _ hr)).bind fun inherited _ => ?_
  refine Steady.foldlM ?_ _
  intro kept r hr
  refine (hlookup r (List.mem_append_right _ hr)).bind fun o _ => ?_
  cases o with
  | some p => exact .pure _
  | none => exact .pure kept

theorem bindParameter_error {p : Parameter} {e : InvalidRef} (h : bindParameter table p = .error e) :
    e.IsIn p.refs := by
  unfold bindParameter at h
  cases hschema : p.effectiveSchema with
  | none =>
      rw [hschema] at h
      cases h
  | some s =>
      rw [hschema] at h
      rcases bind_eq_error.mp h with h | ⟨_, _, h⟩
      · exact (expand_finished_error h).mono (Parameter.refs_effectiveSchema hschema)
      · cases h

theorem refs_of_collected {p : Parameter} (hp : p ∈ collected api ofPath ofOperation) :
    p.refs ⊆ (ofPath ++ ofOperation).flatMap (RefOr.refs Parameter.refs) ++ api.refs := by
  have of_found : ∀ {rs : List (RefOr Parameter)}, p ∈ found api rs → rs ⊆ ofPath ++ ofOperation →
      p.refs ⊆ (ofPath ++ ofOperation).flatMap (RefOr.refs Parameter.refs) ++ api.refs := by
    intro rs hp hrs
    obtain ⟨r, hr, hp⟩ := List.mem_filterMap.mp hp
    intro path hpath
    rcases List.mem_append.mp (Api.refs_of_parameter? hp hpath) with hpath | hpath
    · exact List.mem_append_left _ (List.mem_flatMap.mpr ⟨r, hrs hr, hpath⟩)
    · exact List.mem_append_right _ hpath
  rcases List.mem_append.mp hp with hp | hp
  · exact of_found (List.mem_of_mem_filter hp) (List.subset_append_left _ _)
  · exact of_found (mem_of_mem_lastOnes hp) (List.subset_append_right _ _)

end parameters

/-! ### Bodies and responses -/

/-- The fields of a named schema are looked up without fail. -/
theorem schemaFields_steady (name : String) :
    Steady (fun _ => False) (schemaFields table name) := by
  unfold schemaFields
  cases ((table.get? name).bind ResolvedSchema.properties).bind nonEmpty with
  | some fields => exact .pure (some fields)
  | none => exact .note_pure _ none

theorem namedFields_steady {s : Schema} (hs : s.refs ⊆ refs) :
    Steady (InvalidRef.IsIn refs) (namedFields table s) := by
  unfold namedFields
  cases hbody : bodyRef? s with
  | some path =>
      refine (refName_steady (hs (bodyRef?_mem hbody))).bind fun name _ => ?_
      exact (schemaFields_steady name).mono fun _ h => h.elim
  | none =>
      refine (Steady.lift fun e he => (expand_finished_error he).mono hs).bind fun e _ => ?_
      exact .pure _

theorem requestSchema_steady {r : RefOr RequestBody} (h : r.refs RequestBody.refs ⊆ refs) :
    Steady (InvalidRef.IsIn refs) (requestSchema api r) := by
  cases r with
  | item b => exact .pure b.jsonSchema
  | ref path =>
      refine (refName_steady (h List.mem_cons_self)).bind fun name _ => ?_
      cases api.findRequestBody name with
      | some b => exact .pure b.jsonSchema
      | none => exact .note_pure _ none

theorem refs_of_requestSchema (hapi : api.refs ⊆ refs) {r : RefOr RequestBody}
    (h : r.refs RequestBody.refs ⊆ refs) {schema : Option Schema}
    (hschema : Yields (requestSchema api r) schema) : ∀ s ∈ schema, s.refs ⊆ refs := by
  cases r with
  | item b =>
      obtain rfl := yields_pure_iff.mp hschema
      exact fun s hs => List.Subset.trans (RequestBody.refs_jsonSchema hs) h
  | ref path =>
      obtain ⟨name, _, hschema⟩ := hschema.bind
      cases hb : api.findRequestBody name with
      | some b =>
          rw [hb] at hschema
          obtain rfl := yields_pure_iff.mp hschema
          exact fun s hs => List.Subset.trans (RequestBody.refs_jsonSchema hs)
            (List.Subset.trans (Api.refs_of_findRequestBody hb) hapi)
      | none =>
          rw [hb] at hschema
          obtain ⟨_, _, hschema⟩ := hschema.bind
          obtain rfl := yields_pure_iff.mp hschema
          exact fun s hs => nomatch hs

theorem bindBody_steady {method : Method} {url : String} {schema : Option Schema}
    (h : ∀ s ∈ schema, s.refs ⊆ refs) :
    Steady (InvalidRef.IsIn refs) (bindBody table method url schema) := by
  cases schema with
  | none => exact .pure none
  | some s =>
      rw [bindBody]
      by_cases hget : method = .get
      · rw [if_pos hget]
        exact .note_pure _ none
      · rw [if_neg hget]
        refine (namedFields_steady (h s rfl)).bind fun fields _ => ?_
        cases fields with
        | some fields => exact .pure _
        | none => exact .note_pure _ none

theorem bindBody_matches_self {method : Method} {url : String} (schema : Option Schema) :
    Noting.Matches Eq (bindBody table method url schema) (bindBody table method url schema) := by
  have hrefs : ∀ s ∈ schema, s.refs ⊆ refsOfOption schema := by
    rintro s rfl
    exact List.Subset.refl _
  exact (bindBody_steady hrefs).matches_self

section operations
variable {method : Method} {url : String}

theorem responseFields_steady {r : Response} (hr : r.refs ⊆ refs) :
    Steady (InvalidRef.IsIn refs) (responseFields table method url r) := by
  unfold responseFields
  cases hschema : r.jsonSchema with
  | some s => exact namedFields_steady (List.Subset.trans (Response.refs_jsonSchema hschema) hr)
  | none => exact .note_pure _ none

theorem referredFields_steady (hapi : api.refs ⊆ refs) {r : RefOr Response}
    (hr : r.refs Response.refs ⊆ refs) :
    Steady (InvalidRef.IsIn refs) (referredFields api table method url r) := by
  cases r with
  | item r => exact responseFields_steady hr
  | ref path =>
      refine (refName_steady (hr List.mem_cons_self)).bind fun name _ => ?_
      cases hfind : api.findResponse name with
      | some r =>
          exact responseFields_steady (List.Subset.trans (Api.refs_of_findResponse hfind) hapi)
      | none => exact (schemaFields_steady name).mono fun _ h => h.elim

theorem referredFields_matches_self (r : RefOr Response) :
    Noting.Matches Eq (referredFields api table method url r)
      (referredFields api table method url r) :=
  (referredFields_steady (List.subset_append_right (r.refs Response.refs) api.refs)
    (List.subset_append_left _ _)).matches_self

variable {op : Operation} (hop : op.refs ⊆ refs) (hapi : api.refs ⊆ refs)
include hop

theorem bodySchema_steady (declared : List Parameter) :
    Steady (InvalidRef.IsIn refs) (bodySchema api declared op) := by
  unfold bodySchema
  cases hbody : op.requestBody with
  | some r => exact requestSchema_steady (List.Subset.trans (Operation.refs_of_requestBody hbody) hop)
  | none => exact .pure _

include hapi

theorem bindResponse_steady :
    Steady (InvalidRef.IsIn refs) (bindResponse api table method url op) := by
  rw [bindResponse_def]
  cases hr : successStatuses.findSome? op.responses.get? with
  | none => exact .note_pure _ none
  | some r =>
      obtain ⟨status, _, hr⟩ := List.exists_of_findSome?_eq_some hr
      exact referredFields_steady hapi (List.Subset.trans (Operation.refs_of_responses hr) hop)

theorem refs_of_bodySchema {declared : List Parameter} (hdeclared : ∀ p ∈ declared, p.refs ⊆ refs)
    {schema : Option Schema} (h : Yields (bodySchema api declared op) schema) :
    ∀ s ∈ schema, s.refs ⊆ refs := by
  unfold bodySchema at h
  cases hbody : op.requestBody with
  | some r =>
      rw [hbody] at h
      have hrefs := List.Subset.trans (Operation.refs_of_requestBody hbody) hop
      exact refs_of_requestSchema hapi hrefs h
  | none =>
      rw [hbody] at h
      obtain rfl := yields_pure_iff.mp h
      intro s hs
      obtain ⟨p, hp, hs⟩ := Option.bind_eq_some_iff.mp hs
      have hp := List.mem_of_mem_filter (List.mem_of_mem_getLast? hp)
      refine List.Subset.trans ?_ (hdeclared p hp)
      exact Parameter.refs_effectiveSchema (by rw [Parameter.effectiveSchema, hs])

/-! ### Operations -/

/-- An operation is bound the same whatever was noted before, and fails for an invalid reference that
it has, or its path, or the description. -/
theorem bindOperation_steady {business : Business} {ofPath : List (RefOr Parameter)}
    (hpath : ofPath.flatMap (RefOr.refs Parameter.refs) ⊆ refs) :
    Steady (InvalidRef.IsIn refs) (bindOperation api table business url method ofPath op) := by
  have hparameters : (ofPath ++ op.parameters).flatMap (RefOr.refs Parameter.refs) ⊆ refs := by
    rw [List.flatMap_append]
    exact List.append_subset.mpr ⟨hpath, List.Subset.trans Operation.refs_of_parameters hop⟩
  have hcollected : ∀ p ∈ collected api ofPath op.parameters, p.refs ⊆ refs :=
    fun p hp => List.Subset.trans (refs_of_collected hp)
      (List.append_subset.mpr ⟨hparameters, hapi⟩)
  rw [bindOperation_eq]
  refine Steady.bind ((collectParameters_steady ofPath op.parameters).mono fun _ he =>
    he.mono hparameters) fun declared hdeclared => ?_
  obtain rfl := collectParameters_eq hdeclared
  refine (Steady.mapM fun p hp => Steady.lift fun e he => ?_).bind fun fields _ => ?_
  · exact (bindParameter_error he).mono (hcollected p (List.mem_of_mem_filter hp))
  refine (bodySchema_steady hop _).bind fun schema hschema => ?_
  refine (bindBody_steady (refs_of_bodySchema hop hapi hcollected hschema)).bind
    fun requestBody _ => ?_
  refine (bindResponse_steady hop hapi).bind fun responses _ => ?_
  exact .pure _

end operations

end Binding

theorem bindOperations_steady (business : Business) :
    Steady (InvalidRef.IsIn api.refs) (bindOperations api table business) := by
  rw [bindOperations_def]
  refine Steady.mapM ?_
  rintro ⟨url, ofPath, method, op⟩ hmem
  obtain ⟨item, hitem, hop, rfl⟩ := Api.exists_of_mem_operations hmem
  have hrefs := Api.refs_of_paths hitem
  exact Binding.bindOperation_steady (List.Subset.trans (PathItem.refs_of_operation hop) hrefs)
    (List.Subset.refl _) (List.Subset.trans PathItem.refs_of_parameters hrefs)

end ApiTypes
