import ApiTypes.Proofs.Api.Content
import ApiTypes.Proofs.Binding.Related
import ApiTypes.Proofs.Resolution.Naming

/-! # Named bodies

A schema that is written in the place of a body may be declared under a new name and referred to.  The
reference is bound to the fields that the schema resolves to.  The schema in its place is bound to the
fields of the first part or of the items, where that is a reference, so nothing changes where it
resolves to these (`named_bound`).

Main definitions: `Naming`, `Naming.Fresh`, `Naming.OfApi`, `Shape.BoundAsResolved`. -/

namespace ApiTypes

open Noting (Matches Steady)

/-- A shape that is given a name, and a path that refers to it. -/
structure Naming where
  name : String
  path : String
  shape : Shape
  refName_path : refName path = .ok name

/-- The name is declared nowhere, and neither the shape nor a declared schema refers to it. -/
structure Naming.Fresh (n : Naming) (schemas : Table Schema) : Prop where
  undeclared : schemas.contains n.name = false
  schemas : ∀ other t, schemas.get? other = some t → ¬ t.RefersTo n.name
  shape : ¬ (Schema.inline n.shape).RefersTo n.name

/-! ### What a body is bound to -/

/-- The reference that the schema is resolved to, or to an array of which it is resolved. -/
def Shape.restsOn? (shape : Shape) : Option String :=
  match shape.form with
  | .extension | .firstPart => shape.allOf.head?.bind Schema.refPath?
  | .array => shape.items.bind Schema.refPath?
  | _ => none

/-- What a finished table says of a name. -/
def typeOf (table : Table ResolvedSchema) (name : String) : Descriptor :=
  match table.get? name with
  | some entry => entry.type
  | none => .pending name

/-- The reference that stands for the schema as a body is the one that it is resolved to, and where
that is the reference of its items, it is to no array of objects. -/
structure Shape.BoundAsResolved (table : Table ResolvedSchema) (shape : Shape) : Prop where
  bodyRef : Binding.bodyRef? (.inline shape) = shape.restsOn?
  flat : shape.form = .array → ∀ path ∈ shape.restsOn?, ∀ name, refName path = .ok name →
    ∀ f rest, typeOf table name ≠ .array (.object (f :: rest))

/-- A schema that neither begins with a reference nor lists one is bound as it resolves. -/
theorem Shape.boundAsResolved_of_bodyRef? {table : Table ResolvedSchema} {shape : Shape}
    (h : Binding.bodyRef? (.inline shape) = none) : shape.BoundAsResolved table := by
  have hrefs : shape.allOf.head?.bind Schema.refPath? = none ∧
      shape.items.bind Schema.refPath? = none := by
    rw [Binding.bodyRef?] at h
    cases hpart : shape.allOf.head?.bind Schema.refPath? with
    | some path => rw [hpart] at h; cases h
    | none => rw [hpart] at h; exact ⟨rfl, h⟩
  have hrests : shape.restsOn? = none := by
    unfold restsOn?
    cases shape.form with
    | extension | firstPart => exact hrefs.1
    | array => exact hrefs.2
    | _ => rfl
  refine ⟨h.trans hrests.symm, fun _ path hpath => ?_⟩
  rw [hrests] at hpath
  cases hpath

theorem Schema.eq_ref_of_refPath? {s : Schema} {path : String} (h : s.refPath? = some path) :
    s = .ref path := by
  cases s with
  | ref other => rw [Option.some.inj h]
  | inline shape => cases h

theorem exists_of_head_refPath? {parts : List Schema} {path : String}
    (h : parts.head?.bind Schema.refPath? = some path) : ∃ rest, parts = .ref path :: rest := by
  obtain ⟨first, hfirst, hpath⟩ := Option.bind_eq_some_iff.mp h
  obtain ⟨rest, rfl⟩ := List.head?_eq_some_iff.mp hfirst
  exact ⟨rest, by rw [Schema.eq_ref_of_refPath? hpath]⟩

theorem exists_of_expand_ref {table : Table ResolvedSchema} {path : String} {e : Expansion}
    (he : expand (.finished table) (.ref path) = .ok e) :
    ∃ name, refName path = .ok name ∧ e.type = typeOf table name := by
  rw [expand] at he
  obtain ⟨name, hname, he⟩ := bind_eq_ok.mp he
  obtain rfl := Except.ok.inj he
  refine ⟨name, hname, ?_⟩
  unfold typeOf
  cases table.get? name <;> rfl

/-- A schema that rests on a reference is resolved to what that is, or to an array of it. -/
theorem exists_of_restsOn? {table : Table ResolvedSchema} {shape : Shape} {path : String}
    (hpath : shape.restsOn? = some path) {e : Expansion}
    (he : expand (.finished table) (.inline shape) = .ok e) :
    ∃ name, refName path = .ok name ∧
      (shape.form = .array ∧ e.type = .array (typeOf table name) ∨
        e.type = typeOf table name ∨ e.type = (typeOf table name).asObject) := by
  rw [expand, expandShape_eq] at he
  unfold Shape.restsOn? at hpath
  cases hform : shape.form with
  | extension =>
      rw [hform] at he hpath
      obtain ⟨rest, hall⟩ := exists_of_head_refPath? hpath
      rw [hall] at he
      obtain ⟨e', he', he⟩ := bind_eq_ok.mp he
      obtain rfl := Except.ok.inj he
      obtain ⟨name, hname, htype⟩ := exists_of_expand_ref he'
      exact ⟨name, hname, Or.inr (Or.inr (by rw [← htype]))⟩
  | firstPart =>
      rw [hform] at he hpath
      obtain ⟨rest, hall⟩ := exists_of_head_refPath? hpath
      rw [hall] at he
      obtain ⟨name, hname, htype⟩ := exists_of_expand_ref he
      exact ⟨name, hname, Or.inr (Or.inl htype)⟩
  | array =>
      rw [hform] at he hpath
      obtain ⟨item, hitems, hitem⟩ := Option.bind_eq_some_iff.mp hpath
      obtain rfl := Schema.eq_ref_of_refPath? hitem
      rw [hitems] at he
      obtain ⟨e', he', he⟩ := bind_eq_ok.mp he
      obtain rfl := Except.ok.inj he
      obtain ⟨name, hname, htype⟩ := exists_of_expand_ref he'
      exact ⟨name, hname, Or.inl ⟨rfl, by rw [← htype]⟩⟩
  | _ => rw [hform] at hpath; cases hpath

namespace Binding

variable {table : Table ResolvedSchema}

theorem result_schemaFields (table : Table ResolvedSchema) (name : String) :
    (schemaFields table name).result = .ok ((typeOf table name).fields?.bind nonEmpty) := by
  have hfields : ((table.get? name).bind ResolvedSchema.properties).bind nonEmpty =
      (typeOf table name).fields?.bind nonEmpty := by
    unfold typeOf
    cases table.get? name <;> rfl
  unfold schemaFields
  rw [hfields]
  cases (typeOf table name).fields?.bind nonEmpty <;> rfl

/-- An array has the fields of its items, unless these are arrays of objects. -/
theorem fields?_array {d : Descriptor} (h : ∀ f rest, d ≠ .array (.object (f :: rest))) :
    (Descriptor.array d).fields?.bind nonEmpty = d.fields?.bind nonEmpty := by
  cases d with
  | array item =>
      cases item with
      | object fields =>
          cases fields with
          | nil => rfl
          | cons f rest => exact absurd rfl (h f rest)
      | _ => rfl
  | _ => rfl

theorem fields?_asObject (d : Descriptor) : d.asObject.fields? = d.fields? := by
  cases d <;> rfl

/-- A schema that is bound as it resolves is bound to the fields of its type. -/
theorem result_namedFields {shape : Shape} (h : shape.BoundAsResolved table) {e : Expansion}
    (he : expand (.finished table) (.inline shape) = .ok e) :
    (namedFields table (.inline shape)).result = .ok (e.type.fields?.bind nonEmpty) := by
  unfold namedFields
  rw [h.bodyRef]
  cases hpath : shape.restsOn? with
  | none =>
      dsimp only
      rw [he]
      rfl
  | some path =>
      obtain ⟨name, hname, htype⟩ := exists_of_restsOn? hpath he
      dsimp only
      rw [hname, Noting.lift_ok_bind, result_schemaFields]
      rcases htype with ⟨hform, htype⟩ | htype | htype
      · rw [htype, fields?_array (h.flat hform path hpath name hname)]
      · rw [htype]
      · rw [htype, fields?_asObject]

end Binding

/-! ### Bodies that are named -/

namespace Naming
variable (n : Naming)

/-- A schema that stays and does not mention the name, or the one that is named. -/
inductive OfSchema : Schema → Schema → Prop
  | same {s : Schema} (h : ∀ path ∈ s.refs, refName path ≠ .ok n.name) : OfSchema s s
  | named : OfSchema (.inline n.shape) (.ref n.path)

/-- A parameter that stays and does not mention the name, or one in a body whose schema may be
named. -/
inductive OfParameter : Parameter → Parameter → Prop
  | same {p : Parameter} (h : ∀ path ∈ p.refs, refName path ≠ .ok n.name) : OfParameter p p
  | body {p : Parameter} {schema : Option Schema} (hp : p.location = .body)
      (h : Option.Rel n.OfSchema p.schema schema) : OfParameter p { p with schema := schema }

/-- Content in which some schemas are named. -/
def OfContent (c c' : Content) : Prop := c.Related (Option.Rel n.OfSchema) c'

/-- A body in whose content some schemas are named. -/
def OfBody (b b' : RequestBody) : Prop := n.OfContent b.content b'.content

/-- A response in which some schemas are named. -/
structure OfResponse (r r' : Response) : Prop where
  content : n.OfContent r.content r'.content
  schema : Option.Rel n.OfSchema r.schema r'.schema

/-- A response or a reference to one, which is none to the name. -/
def OfResponseRef (r r' : RefOr Response) : Prop :=
  r.Related n.OfResponse r' ∧ ∀ path, r = .ref path → refName path ≠ .ok n.name

/-- Parameters, of which some bodies are named. -/
def OfParameters (ps ps' : List (RefOr Parameter)) : Prop :=
  List.Forall₂ (RefOr.Related n.OfParameter) ps ps'

/-- An operation in whose bodies some schemas are named. -/
structure OfOperation (op op' : Operation) : Prop where
  parameters : n.OfParameters op.parameters op'.parameters
  requestBody : Option.Rel (RefOr.Related n.OfBody) op.requestBody op'.requestBody
  responses : op.responses.Related n.OfResponseRef op'.responses
  others : op' = { op with
    parameters := op'.parameters, requestBody := op'.requestBody, responses := op'.responses }

/-- A description in whose bodies some schemas are named, with the name declared at the end. -/
structure OfApi (api api' : Api) : Prop where
  schemas : api'.schemas = api.schemas.insert n.name (.inline n.shape)
  paths : api.paths.Related (PathItem.Related n.OfParameters n.OfOperation) api'.paths
  parameters : api.parameters.Related (RefOr.Related n.OfParameter) api'.parameters
  responses : api.responses.Related (RefOr.Related n.OfResponse) api'.responses
  componentParameters : api.components.parameters.Related (RefOr.Related n.OfParameter)
    api'.components.parameters
  componentResponses : api.components.responses.Related (RefOr.Related n.OfResponse)
    api'.components.responses
  requestBodies : api.components.requestBodies.Related (RefOr.Related n.OfBody)
    api'.components.requestBodies

end Naming

/-! ### Schemas of bodies -/

theorem Response.jsonSchema_eq (r : Response) : r.jsonSchema = r.content.jsonSchema.or r.schema := by
  unfold jsonSchema
  cases r.content.jsonSchema <;> rfl

namespace Naming
variable {n : Naming}

theorem OfContent.schemaFor {c c' : Content} (h : n.OfContent c c') (mediaType : String) :
    Option.Rel n.OfSchema (c.schemaFor mediaType) (c'.schemaFor mediaType) :=
  rel_join (Table.Related.get? h mediaType)

theorem OfContent.jsonSchema {c c' : Content} (h : n.OfContent c c') :
    Option.Rel n.OfSchema c.jsonSchema c'.jsonSchema := by
  rw [Content.jsonSchema_eq, Content.jsonSchema_eq]
  exact rel_or (h.schemaFor _) (rel_or (rel_join (rel_find? h _)) (h.schemaFor _))

theorem OfBody.jsonSchema {b b' : RequestBody} (h : n.OfBody b b') :
    Option.Rel n.OfSchema b.jsonSchema b'.jsonSchema :=
  OfContent.schemaFor h Content.jsonType

theorem OfResponse.jsonSchema {r r' : Response} (h : n.OfResponse r r') :
    Option.Rel n.OfSchema r.jsonSchema r'.jsonSchema := by
  rw [Response.jsonSchema_eq, Response.jsonSchema_eq]
  exact rel_or h.content.jsonSchema h.schema

theorem OfParameter.place_eq {p p' : Parameter} (h : n.OfParameter p p') : p'.place = p.place := by
  cases h <;> rfl

theorem OfParameter.location_eq {p p' : Parameter} (h : n.OfParameter p p') :
    p'.location = p.location := by
  cases h <;> rfl

theorem OfParameter.schema {p p' : Parameter} (h : n.OfParameter p p') :
    Option.Rel n.OfSchema p.schema p'.schema := by
  cases h with
  | same h =>
      cases hs : p.schema with
      | none => exact .none
      | some s =>
          refine .some (.same fun path hpath => h path ?_)
          unfold Parameter.refs
          rw [hs]
          exact List.mem_append_left _ hpath
  | body _ hs => exact hs

end Naming

/-! ### Fields of bodies -/

/-- The tables say the same of all other names, and of the name what its shape is resolved to, as
which that is bound. -/
structure Naming.Agrees (n : Naming) (table table' : Table ResolvedSchema) : Prop where
  others : ∀ name, name ≠ n.name → table'.get? name = table.get? name
  entry : ∃ entry, table'.get? n.name = some entry ∧
    expand (.finished table) (.inline n.shape) = .ok { type := entry.type }
  bound : n.shape.BoundAsResolved table

theorem Schema.Follows.exists_ref {s : Schema} {name : String} (h : s.Follows name) :
    ∃ path ∈ s.refs, refName path = .ok name := by
  induction h with
  | ref hname => exact ⟨_, by simp [Schema.refs], hname⟩
  | part hs _ ih =>
      obtain ⟨path, hpath, hname⟩ := ih
      exact ⟨path, Shape.refs_of_mem_parts hs hpath, hname⟩

namespace Binding

variable {n : Naming} {table table' : Table ResolvedSchema} (hagrees : n.Agrees table table')
include hagrees

theorem expand_agrees {s : Schema} (hs : ∀ path ∈ s.refs, refName path ≠ .ok n.name) :
    expand (.finished table') s = expand (.finished table) s ∧
      describe (.finished table') s = describe (.finished table) s := by
  have hsame : ∀ name, s.Follows name → table'.get? name = table.get? name := by
    intro name hname
    refine hagrees.others name ?_
    rintro rfl
    obtain ⟨path, hpath, hname⟩ := hname.exists_ref
    exact hs path hpath hname
  have hdescription : ∀ name, s.Follows name →
      (Lookup.finished table').description name = (Lookup.finished table).description name := by
    intro name hname
    simp only [Lookup.finished, hsame name hname]
  refine ⟨expand_congr ?_ hdescription, describe_congr hdescription⟩
  intro name hname
  simp only [Lookup.finished, hsame name hname]

/-- A body has the same fields, whether its schema is named or stays. -/
theorem namedFields_agrees {s s' : Schema} (h : n.OfSchema s s') :
    Matches Eq (namedFields table s) (namedFields table' s') := by
  refine (namedFields_steady (List.Subset.refl s.refs)).matches_of_result_eq
    (namedFields_steady (List.Subset.refl s'.refs)) ?_
  cases h with
  | same hs =>
      unfold namedFields
      cases hbody : bodyRef? s with
      | none =>
          dsimp only
          rw [(expand_agrees hagrees hs).1]
      | some path =>
          dsimp only
          cases hname : refName path with
          | error e => rfl
          | ok name =>
              have hne : name ≠ n.name := fun h => hs path (bodyRef?_mem hbody) (h ▸ hname)
              rw [Noting.lift_ok_bind, Noting.lift_ok_bind, result_schemaFields,
                result_schemaFields, typeOf, typeOf, hagrees.others name hne]
  | named =>
      obtain ⟨entry, hentry, hexpand⟩ := hagrees.entry
      rw [result_namedFields hagrees.bound hexpand]
      change _ = (liftM (refName n.path) >>= fun name => schemaFields table' name).result
      rw [n.refName_path, Noting.lift_ok_bind, result_schemaFields, typeOf, hentry]

theorem bindBody_agrees {method : Method} {url : String} {o o' : Option Schema}
    (h : Option.Rel n.OfSchema o o') :
    Matches Eq (bindBody table method url o) (bindBody table' method url o') := by
  cases h with
  | none => exact .pure rfl
  | some h =>
      rw [bindBody, bindBody]
      by_cases hget : method = .get
      · rw [if_pos hget, if_pos hget]
        exact .note_pure _ _ rfl
      · rw [if_neg hget, if_neg hget]
        refine (namedFields_agrees hagrees h).bind_eq fun fields _ => ?_
        cases fields with
        | some fields => exact .pure rfl
        | none => exact .note_pure _ _ rfl

theorem responseFields_agrees {method : Method} {url : String} {r r' : Response}
    (h : n.OfResponse r r') :
    Matches Eq (responseFields table method url r) (responseFields table' method url r') := by
  have hschema := h.jsonSchema
  unfold responseFields
  generalize r.jsonSchema = o at hschema ⊢
  generalize r'.jsonSchema = o' at hschema ⊢
  cases hschema with
  | some h => exact namedFields_agrees hagrees h
  | none => exact .note_pure _ _ rfl

/-- A parameter that is no body has the same field. -/
theorem bindParameter_agrees {p p' : Parameter} (h : n.OfParameter p p') (hp : p.location ≠ .body) :
    bindParameter table' p' = bindParameter table p := by
  cases h with
  | body hbody _ => exact absurd hbody hp
  | same h =>
      unfold bindParameter
      cases hschema : p.effectiveSchema with
      | none => rfl
      | some s =>
          have hs := expand_agrees hagrees fun path hpath =>
            h path (Parameter.refs_effectiveSchema hschema hpath)
          simp only [hs.1, hs.2, Option.bind_some]

end Binding

/-! ### What is shared -/

namespace Naming.OfApi

variable {n : Naming} {api api' : Api} (h : n.OfApi api api')
include h

theorem findParameter (name : String) :
    Option.Rel n.OfParameter (api.findParameter name) (api'.findParameter name) :=
  rel_item? (Api.declared?_related h.componentParameters h.parameters name)

theorem findResponse (name : String) :
    Option.Rel n.OfResponse (api.findResponse name) (api'.findResponse name) :=
  rel_item? (Api.declared?_related h.componentResponses h.responses name)

theorem findRequestBody (name : String) :
    Option.Rel n.OfBody (api.findRequestBody name) (api'.findRequestBody name) :=
  rel_item? (h.requestBodies.get? name)

end Naming.OfApi

namespace Binding

variable {n : Naming} {api api' : Api} {table table' : Table ResolvedSchema} {method : Method}
  {url : String}

/-! ### Parameters -/

/-- A parameter replaces the same ones. -/
theorem replace_named {kept kept' : List Parameter} (hkept : List.Forall₂ n.OfParameter kept kept')
    {p p' : Parameter} (hp : n.OfParameter p p') :
    List.Forall₂ n.OfParameter (kept.filter (!sameParameter · p) ++ [p])
      (kept'.filter (!sameParameter · p') ++ [p']) := by
  refine List.rel_append (List.rel_filter ?_ hkept) (.cons hp .nil)
  intro q q' hq
  have hsame : sameParameter q' p' = sameParameter q p := by
    rw [Bool.eq_iff_iff, sameParameter_iff, sameParameter_iff, hq.place_eq, hp.place_eq]
  dsimp only
  rw [hsame]

/-- The schema of the last parameter in a body. -/
theorem bodyParameterSchema_named {ps ps' : List Parameter}
    (h : List.Forall₂ n.OfParameter ps ps') :
    Option.Rel n.OfSchema (bodyParameterSchema ps) (bodyParameterSchema ps') := by
  have hbodies : List.Forall₂ n.OfParameter (ps.filter (·.location = .body))
      (ps'.filter (·.location = .body)) := by
    refine List.rel_filter ?_ h
    intro p p' hp
    dsimp only
    rw [hp.location_eq]
  have hreversed := List.rel_reverse hbodies
  unfold bodyParameterSchema
  rw [List.getLast?_eq_head?_reverse, List.getLast?_eq_head?_reverse]
  generalize (ps.filter (·.location = .body)).reverse = l at hreversed ⊢
  generalize (ps'.filter (·.location = .body)).reverse = l' at hreversed ⊢
  cases hreversed with
  | nil => exact .none
  | cons hp _ => exact hp.schema

theorem mapM_bindParameter_named (hagrees : n.Agrees table table') {ps ps' : List Parameter}
    (h : List.Forall₂ n.OfParameter ps ps') :
    Matches Eq
      ((ps.filter (·.location ≠ .body)).mapM fun p =>
        (bindParameter table p : Noting InvalidRef Field))
      ((ps'.filter (·.location ≠ .body)).mapM fun p =>
        (bindParameter table' p : Noting InvalidRef Field)) := by
  have hsent : List.Forall₂ (fun p p' => p.location ≠ .body ∧ n.OfParameter p p')
      (ps.filter (·.location ≠ .body)) (ps'.filter (·.location ≠ .body)) := by
    rw [List.forall₂_and_left]
    refine ⟨fun p hp => by simpa using (List.mem_filter.mp hp).2, List.rel_filter ?_ h⟩
    intro p p' hp
    dsimp only
    rw [hp.location_eq]
  refine Matches.mapM₂_eq (hsent.imp fun p p' hp => ?_)
  rw [bindParameter_agrees hagrees hp.2 hp.1]
  exact .lift _

section shared
variable (h : n.OfApi api api')
include h

theorem lookupParameter_named {r r' : RefOr Parameter} (hr : r.Related n.OfParameter r') :
    Matches (Option.Rel n.OfParameter) (lookupParameter api r) (lookupParameter api' r') := by
  cases hr with
  | item hp => exact .pure (.some hp)
  | ref path =>
      rw [lookupParameter_ref, lookupParameter_ref]
      refine (Matches.lift (refName path)).bind_eq fun name _ => ?_
      have hfound := h.findParameter name
      generalize api.findParameter name = o at hfound ⊢
      generalize api'.findParameter name = o' at hfound ⊢
      cases hfound with
      | some hp => exact .pure (.some hp)
      | none => exact .note_pure _ _ .none

theorem collectParameters_named {ofPath ofPath' ofOperation ofOperation' : List (RefOr Parameter)}
    (hpath : n.OfParameters ofPath ofPath') (hoperation : n.OfParameters ofOperation ofOperation') :
    Matches (List.Forall₂ n.OfParameter) (collectParameters api ofPath ofOperation)
      (collectParameters api' ofPath' ofOperation') := by
  rw [collectParameters_def, collectParameters_def]
  refine (Matches.mapM₂ (hpath.imp fun _ _ => lookupParameter_named h)).bind fun l l' _ _ hl => ?_
  refine Matches.foldlM₂ ?_ hoperation (List.rel_filterMap (fun _ _ => id) hl)
  intro kept kept' r r' hkept hr
  refine (lookupParameter_named h hr).bind fun o o' _ _ ho => ?_
  cases ho with
  | some hp => exact .pure (replace_named hkept hp)
  | none => exact .pure hkept

/-! ### Bodies and responses -/

theorem bodySchema_named {op op' : Operation} (hop : n.OfOperation op op') {ps ps' : List Parameter}
    (hps : List.Forall₂ n.OfParameter ps ps') :
    Matches (Option.Rel n.OfSchema) (bodySchema api ps op) (bodySchema api' ps' op') := by
  have hbody := hop.requestBody
  unfold bodySchema
  generalize op.requestBody = o at hbody ⊢
  generalize op'.requestBody = o' at hbody ⊢
  cases hbody with
  | none => exact .pure (bodyParameterSchema_named hps)
  | some hr =>
      cases hr with
      | item hb => exact .pure hb.jsonSchema
      | ref path =>
          refine (Matches.lift (refName path)).bind_eq fun name _ => ?_
          have hfound := h.findRequestBody name
          generalize api.findRequestBody name = o at hfound ⊢
          generalize api'.findRequestBody name = o' at hfound ⊢
          cases hfound with
          | some hb => exact .pure hb.jsonSchema
          | none => exact .note_pure _ _ .none

theorem referredFields_named (hagrees : n.Agrees table table') {r r' : RefOr Response}
    (hr : n.OfResponseRef r r') :
    Matches Eq (referredFields api table method url r)
      (referredFields api' table' method url r') := by
  obtain ⟨hr, hother⟩ := hr
  cases hr with
  | item hr => exact responseFields_agrees hagrees hr
  | ref path =>
      refine (Matches.lift (refName path)).bind_eq fun name hname => ?_
      have hfound := h.findResponse name
      generalize api.findResponse name = o at hfound ⊢
      generalize api'.findResponse name = o' at hfound ⊢
      cases hfound with
      | some hr => exact responseFields_agrees hagrees hr
      | none =>
          have hne : name ≠ n.name := by
            rintro rfl
            exact hother path rfl (Noting.eq_ok_of_yields_lift hname)
          refine (schemaFields_steady name).matches_of_result_eq (schemaFields_steady name) ?_
          rw [result_schemaFields, result_schemaFields, typeOf, typeOf, hagrees.others name hne]

/-! ### Operations -/

theorem bindOperation_named (hagrees : n.Agrees table table')
    {ofPath ofPath' : List (RefOr Parameter)} {op op' : Operation}
    (hpath : n.OfParameters ofPath ofPath') (hop : n.OfOperation op op') (business : Business) :
    Matches Eq (bindOperation api table business url method ofPath op)
      (bindOperation api' table' business url method ofPath' op') := by
  refine bindOperation_related ?_ ?_ (collectParameters_named h hpath hop.parameters)
    (fun ps ps' hps => mapM_bindParameter_named hagrees hps) ?_
    (bindResponse_related hop.responses fun _ _ => referredFields_named h hagrees)
  · rw [hop.others]
    rfl
  · rw [hop.others]
  · intro ps ps' hps
    exact (bodySchema_named h hop hps).bind fun o o' _ _ ho => bindBody_agrees hagrees ho

end shared

end Binding

/-- A fresh name can be declared wherever the references of its shape are valid. -/
theorem Naming.Fresh.exists_resolution {n : Naming} {schemas : Table Schema}
    (hfresh : n.Fresh schemas) {found : List String}
    (hshape : (Schema.inline n.shape).references = .ok found) {r : Resolution}
    (hr : resolveSchemas schemas = .ok r) :
    ∃ r' entry, resolveSchemas (schemas.insert n.name (.inline n.shape)) = .ok r' ∧
      r'.table.restrict (· != n.name) = r.table ∧ r'.table.get? n.name = some entry ∧
      expand (.finished r.table) (.inline n.shape) = .ok { type := entry.type } := by
  obtain ⟨g₀, hg₀⟩ := ofSchemas_of_resolveSchemas hr
  obtain ⟨g, hg⟩ : ∃ g, Graph.ofSchemas (schemas.insert n.name (.inline n.shape)) = .ok g := by
    apply exists_ofSchemas
    intro name s hs
    rw [Table.get?_insert] at hs
    split at hs
    · obtain rfl := Option.some.inj hs
      exact ⟨found, hshape⟩
    · exact ⟨_, ofSchemas_targets hg₀ hs⟩
  obtain ⟨r', hr', _⟩ := resolveSchemas_stage hg
  have hun := unreferenced_of_refersTo hg hfresh.schemas hfresh.shape
  obtain ⟨r₁, entry, hr₁, htable, hget, hexpand, _⟩ :=
    exists_entry_of_unreferenced hfresh.undeclared hg hun hr'
  obtain rfl := Except.ok.inj (hr.symm.trans hr₁)
  exact ⟨r', entry, hr', htable, hget, hexpand⟩

/-- The schema of some bodies is declared under a fresh name.  Nothing declared changes; a reference
to the name is bound to the fields that the schema resolves to; and where the schema in its place is
bound as it resolves, every operation is bound to the same fields as before. -/
theorem named_bound {n : Naming} {api api' : Api} (h : n.OfApi api api')
    (hfresh : n.Fresh api.schemas) {found : List String}
    (hshape : (Schema.inline n.shape).references = .ok found) {r : Resolution}
    (hr : resolveSchemas api.schemas = .ok r) :
    ∃ r' e, resolveSchemas api'.schemas = .ok r' ∧ r'.table.restrict (· != n.name) = r.table ∧
      expand (.finished r.table) (.inline n.shape) = .ok e ∧
      (Binding.namedFields r'.table (.ref n.path)).result =
        .ok (e.type.fields?.bind Binding.nonEmpty) ∧
      (n.shape.BoundAsResolved r.table → ∀ business,
        (bindOperations api' r'.table business).result =
          (bindOperations api r.table business).result) := by
  obtain ⟨r', entry, hr', htable, hget, hexpand⟩ := hfresh.exists_resolution hshape hr
  rw [← h.schemas] at hr'
  refine ⟨r', _, hr', htable, hexpand, ?_, ?_⟩
  · change (liftM (refName n.path) >>= fun name => Binding.schemaFields r'.table name).result = _
    rw [n.refName_path, Noting.lift_ok_bind, Binding.result_schemaFields, typeOf, hget]
  · intro hbound business
    have hagrees : n.Agrees r.table r'.table := by
      refine ⟨fun name hname => ?_, ⟨entry, hget, hexpand⟩, hbound⟩
      rw [← htable, eq_comm]
      exact Table.get?_restrict_of_kept (bne_iff_ne.mpr hname)
    refine (Matches.result_eq (bindOperations_related h.paths ?_)).symm
    intro url method ofPath ofPath' op op' hpath hop
    exact Binding.bindOperation_named h hagrees hpath hop business

/-- The books of a library, which are added and then listed by the same schema. -/
def shelf (schemas : Table Schema) (body : Schema) : Api where
  openapi := some "3.0.0"
  info := { title := "Library", version := "1" }
  paths := Table.ofList [("/books", {
    operation := fun
      | .post => some {
        requestBody := some (.item { content := Table.ofList [(Content.jsonType, some body)] })
        responses := Table.ofList [
          ("200", .item { content := Table.ofList [(Content.jsonType, some body)] })] }
      | _ => none })]
  components := { schemas := schemas }

/-- A book has a title. -/
def bookSchemas : Table Schema := Table.ofList [
  ("Book", .inline { properties := [("title", .inline { type := some (.single .string) })] })]

/-- The shelf with the shape in the place of its bodies. -/
def placedShelf (shape : Shape) : Api := shelf bookSchemas (.inline shape)

/-- The shelf with the shape under a name. -/
def namedShelf (shape : Shape) : Api :=
  shelf (bookSchemas.insert "Shelf" (.inline shape)) (.ref "#/components/schemas/Shelf")

/-- The name of the shape. -/
def shelfNaming (shape : Shape) : Naming where
  name := "Shelf"
  path := "#/components/schemas/Shelf"
  shape := shape
  refName_path := by decide +kernel

theorem shelfNaming_ofApi (shape : Shape) :
    (shelfNaming shape).OfApi (placedShelf shape) (namedShelf shape) where
  schemas := rfl
  paths := by
    refine .cons ⟨rfl, .nil, ?_⟩ .nil
    intro m
    cases m with
    | post =>
        refine .some ⟨.nil, .some (.item ?_), .cons ⟨rfl, .item ⟨?_, .none⟩, nofun⟩ .nil, rfl⟩
        · exact .cons ⟨rfl, .some .named⟩ .nil
        · exact .cons ⟨rfl, .some .named⟩ .nil
    | _ => exact .none
  parameters := .nil
  responses := .nil
  componentParameters := .nil
  componentResponses := .nil
  requestBodies := .nil

theorem shelfNaming_fresh {shape : Shape} (h : ¬ (Schema.inline shape).RefersTo "Shelf") :
    (shelfNaming shape).Fresh (placedShelf shape).schemas := by
  have hundeclared : bookSchemas.contains "Shelf" = false := by decide +kernel
  have hothers : ∀ other t, bookSchemas.get? other = some t → ¬ t.RefersTo "Shelf" :=
    Table.holds_iff.mpr (by decide +kernel)
  exact ⟨hundeclared, hothers, h⟩

/-- The keys of the fields of what is asked and answered. -/
def BoundOperation.bodyKeys (o : BoundOperation) : List String × List String :=
  (o.requestFields.map Field.key, o.responseFields.map Field.key)

/-- A list of books. -/
def bookList : Shape where
  type := some (.single .array)
  items := some (.ref "#/components/schemas/Book")

/-- A list of books is bound to the title of a book, in its place and under a name. -/
theorem bookList_bound : ∃ r r' ops,
    (shelfNaming bookList).OfApi (placedShelf bookList) (namedShelf bookList) ∧
    (shelfNaming bookList).Fresh (placedShelf bookList).schemas ∧
    (Schema.inline bookList).references = .ok ["Book"] ∧
    resolveSchemas (placedShelf bookList).schemas = .ok r ∧ bookList.BoundAsResolved r.table ∧
    resolveSchemas (namedShelf bookList).schemas = .ok r' ∧
    (bindOperations (placedShelf bookList) r.table {}).result = .ok ops ∧
    ops.map BoundOperation.bodyKeys = [(["title"], ["title"])] ∧
    (bindOperations (namedShelf bookList) r'.table {}).result = .ok ops := by
  have hofApi := shelfNaming_ofApi bookList
  have hfresh : (shelfNaming bookList).Fresh (placedShelf bookList).schemas :=
    shelfNaming_fresh (by decide +kernel)
  have hrefs : (Schema.inline bookList).references = .ok ["Book"] := by decide +kernel
  have hkeys : ((resolveSchemas (placedShelf bookList).schemas).toOption.bind fun r =>
      (bindOperations (placedShelf bookList) r.table {}).result.toOption.map
        (·.map BoundOperation.bodyKeys)) = some [(["title"], ["title"])] := by decide +kernel
  have htype : ((resolveSchemas (placedShelf bookList).schemas).toOption.map fun r =>
      typeOf r.table "Book") =
        some (.object [{ key := "title", type := .primitive .string }]) := by decide +kernel
  obtain ⟨r, ops, hr, hops, hkeys⟩ := exists_bindOperations hkeys
  have hbook : typeOf r.table "Book" = .object [{ key := "title", type := .primitive .string }] := by
    rw [hr] at htype
    exact Option.some.inj htype
  have hbound : bookList.BoundAsResolved r.table := by
    refine ⟨rfl, ?_⟩
    intro _ path hpath name hname f rest hnested
    obtain rfl : "#/components/schemas/Book" = path := Option.some.inj hpath
    have hrefName : refName "#/components/schemas/Book" = .ok "Book" := by decide +kernel
    obtain rfl := Except.ok.inj (hrefName.symm.trans hname)
    rw [hbook] at hnested
    cases hnested
  obtain ⟨r', e, hr', -, -, -, hnamed⟩ := named_bound hofApi hfresh hrefs hr
  exact ⟨r, r', ops, hofApi, hfresh, hrefs, hr, hbound, hr', hops, hkeys,
    (hnamed hbound {}).trans hops⟩

/-- A book with the day on which it was added. -/
def addition : Shape where
  type := some (.single .object)
  properties := [("added", .inline { type := some (.single .string) })]
  allOf := [.ref "#/components/schemas/Book"]

/-- An addition is bound to the title of a book in its place, and to its day under a name. -/
theorem addition_not_bound_as_resolved :
    (shelfNaming addition).OfApi (placedShelf addition) (namedShelf addition) ∧
    (shelfNaming addition).Fresh (placedShelf addition).schemas ∧ ∃ r r' ops ops',
      resolveSchemas (placedShelf addition).schemas = .ok r ∧
      (bindOperations (placedShelf addition) r.table {}).result = .ok ops ∧
      ops.map BoundOperation.bodyKeys = [(["title"], ["title"])] ∧
      resolveSchemas (namedShelf addition).schemas = .ok r' ∧
      (bindOperations (namedShelf addition) r'.table {}).result = .ok ops' ∧
      ops'.map BoundOperation.bodyKeys = [(["added"], ["added"])] := by
  have hplaced : ((resolveSchemas (placedShelf addition).schemas).toOption.bind fun r =>
      (bindOperations (placedShelf addition) r.table {}).result.toOption.map
        (·.map BoundOperation.bodyKeys)) = some [(["title"], ["title"])] := by decide +kernel
  have hnamed : ((resolveSchemas (namedShelf addition).schemas).toOption.bind fun r =>
      (bindOperations (namedShelf addition) r.table {}).result.toOption.map
        (·.map BoundOperation.bodyKeys)) = some [(["added"], ["added"])] := by decide +kernel
  obtain ⟨r, ops, hr, hops, hkeys⟩ := exists_bindOperations hplaced
  obtain ⟨r', ops', hr', hops', hkeys'⟩ := exists_bindOperations hnamed
  exact ⟨shelfNaming_ofApi addition, shelfNaming_fresh (by decide +kernel), r, r', ops, ops', hr, hops,
    hkeys, hr', hops', hkeys'⟩

end ApiTypes
