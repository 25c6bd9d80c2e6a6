import ApiTypes.Proofs.Binding.Operations
import ApiTypes.Proofs.Resolution.Forms

/-! # References of a description

Every reference that stands in a description, at any depth and wherever it may stand, whether
resolution follows it or not.  A parameter, a body or a response that an operation refers to has only
references of the description (`Api.refs_of_findParameter` and its like), and so has every schema that
resolution enters (`Shape.refs_of_mem_parts`).

Main definitions: `Schema.refs`, `Api.refs`, `InvalidRef.IsIn`. -/

namespace ApiTypes

/-! ### Schemas -/

mutual
/-- The paths of the references in a schema. -/
def Schema.refs : Schema → List String
  | .ref path => [path]
  | .inline shape => shape.refs

/-- The paths of the references under the keywords of a schema. -/
def Shape.refs : Shape → List String
  | ⟨_, _, _, properties, _, items, allOf, oneOf, anyOf, _⟩ =>
    refsOfProperties properties ++ refsOfOption items ++ refsOfAll allOf ++ refsOfAll oneOf ++
      refsOfAll anyOf

/-- The paths of the references in the schemas of properties. -/
def refsOfProperties : List (String × Schema) → List String
  | [] => []
  | (_, s) :: rest => s.refs ++ refsOfProperties rest

/-- The paths of the references in a schema, where there is one. -/
def refsOfOption : Option Schema → List String
  | none => []
  | some s => s.refs

/-- The paths of the references in schemas. -/
def refsOfAll : List Schema → List String
  | [] => []
  | s :: rest => s.refs ++ refsOfAll rest
end

theorem refsOfProperties_eq : ∀ properties : List (String × Schema),
    refsOfProperties properties = properties.flatMap fun p => p.2.refs
  | [] => rfl
  | (_, s) :: rest => by rw [refsOfProperties, refsOfProperties_eq rest, List.flatMap_cons]

theorem refsOfAll_eq : ∀ schemas : List Schema, refsOfAll schemas = schemas.flatMap Schema.refs
  | [] => rfl
  | s :: rest => by rw [refsOfAll, refsOfAll_eq rest, List.flatMap_cons]

theorem refsOfOption_eq (o : Option Schema) : refsOfOption o = o.toList.flatMap Schema.refs := by
  cases o <;> simp [refsOfOption]

theorem Shape.refs_eq (shape : Shape) : shape.refs =
    (shape.properties.flatMap fun p => p.2.refs) ++ shape.items.toList.flatMap Schema.refs ++
      shape.allOf.flatMap Schema.refs ++ shape.oneOf.flatMap Schema.refs ++
      shape.anyOf.flatMap Schema.refs := by
  obtain ⟨type, description, default, properties, required, items, allOf, oneOf, anyOf, enum⟩ := shape
  rw [Shape.refs, refsOfProperties_eq, refsOfOption_eq, refsOfAll_eq, refsOfAll_eq, refsOfAll_eq]

theorem Shape.refs_of_mem {shape : Shape} {s : Schema}
    (h : (∃ p ∈ shape.properties, p.2 = s) ∨ s ∈ shape.items ∨ s ∈ shape.allOf) :
    s.refs ⊆ shape.refs := by
  rw [Shape.refs_eq]
  intro path hpath
  simp only [List.mem_append, List.mem_flatMap, Option.mem_toList]
  rcases h with ⟨p, hp, rfl⟩ | hs | hs
  · exact Or.inl (Or.inl (Or.inl (Or.inl ⟨p, hp, hpath⟩)))
  · exact Or.inl (Or.inl (Or.inl (Or.inr ⟨s, hs, hpath⟩)))
  · exact Or.inl (Or.inl (Or.inr ⟨s, hs, hpath⟩))

theorem Shape.refs_of_mem_parts {shape : Shape} {s : Schema} (h : s ∈ shape.parts) :
    s.refs ⊆ shape.refs :=
  refs_of_mem (mem_of_mem_parts h)

/-! ### Errors of resolution -/

/-- The error is that of an invalid reference among those given. -/
def InvalidRef.IsIn (refs : List String) (e : InvalidRef) : Prop :=
  e.path ∈ refs ∧ refName e.path = .error e

theorem InvalidRef.IsIn.mono {refs more : List String} {e : InvalidRef} (h : e.IsIn refs)
    (hsub : refs ⊆ more) : e.IsIn more :=
  ⟨hsub h.1, h.2⟩

theorem isIn_of_refName {path : String} {e : InvalidRef} (h : refName path = .error e)
    {refs : List String} (hpath : path ∈ refs) : e.IsIn refs := by
  have he : e.path = path := by
    unfold refName at h
    dsimp only at h
    split at h
    · exact (congrArg InvalidRef.path (Except.error.inj h)).symm
    · cases h
  exact ⟨he ▸ hpath, he ▸ h⟩

theorem propertyReferences_error {e : InvalidRef} : ∀ {properties : List (String × Schema)},
    propertyReferences properties = .error e → ∃ p ∈ properties, p.2.references = .error e
  | (key, s) :: rest, h => by
      rw [propertyReferences] at h
      rcases bind_eq_error.mp h with h | ⟨_, _, h⟩
      · exact ⟨_, List.mem_cons_self, h⟩
      rcases bind_eq_error.mp h with h | ⟨_, _, h⟩
      · obtain ⟨p, hp, h⟩ := propertyReferences_error h
        exact ⟨p, List.mem_cons_of_mem _ hp, h⟩
      · cases h

theorem optionReferences_error {e : InvalidRef} {o : Option Schema}
    (h : optionReferences o = .error e) : ∃ s ∈ o, s.references = .error e := by
  cases o with
  | none => cases h
  | some s => exact ⟨s, rfl, h⟩

/-- The references of a schema cannot be listed only where one of them is invalid. -/
theorem Schema.references_error {s : Schema} {e : InvalidRef} (h : s.references = .error e) :
    e.IsIn s.refs := by
  induction s using Schema.nested with
  | ref path =>
      rw [Schema.references] at h
      rcases bind_eq_error.mp h with h | ⟨_, _, h⟩
      · exact isIn_of_refName h (by simp [Schema.refs])
      · cases h
  | inline shape hproperties hitems hallOf =>
      rw [Schema.references, references_eq] at h
      rcases bind_eq_error.mp h with h | ⟨_, _, h⟩
      · obtain ⟨p, hp, h⟩ := propertyReferences_error h
        exact (hproperties p hp h).mono (Shape.refs_of_mem (Or.inl ⟨p, hp, rfl⟩))
      rcases bind_eq_error.mp h with h | ⟨_, _, h⟩
      · obtain ⟨s, hs, h⟩ := optionReferences_error h
        exact (hitems s hs h).mono (Shape.refs_of_mem (Or.inr (Or.inl hs)))
      rcases bind_eq_error.mp h with h | ⟨_, _, h⟩
      · obtain ⟨s, hs, h⟩ := optionReferences_error h
        have hs := List.mem_of_mem_head? hs
        exact (hallOf s hs h).mono (Shape.refs_of_mem (Or.inr (Or.inr hs)))
      · cases h

/-- Over a finished table a schema fails to expand only for a reference of its own. -/
theorem expand_finished_error {table : Table ResolvedSchema} {s : Schema} {e : InvalidRef}
    (h : expand (.finished table) s = .error e) : e.IsIn s.refs := by
  induction s using Schema.induction with
  | ref path =>
      rw [expand] at h
      rcases bind_eq_error.mp h with h | ⟨_, _, h⟩
      · exact isIn_of_refName h (by simp [Schema.refs])
      · cases h
  | inline shape ih =>
      obtain ⟨s, hs, h⟩ := expand_part_error h
      exact (ih s hs h).mono (Shape.refs_of_mem_parts hs)

/-! ### All references of a description -/

section
variable {α : Type} (inner : α → List String)

/-- The path of a reference, or those in what stands in its place. -/
def RefOr.refs : RefOr α → List String
  | .ref path => [path]
  | .item a => inner a

/-- The paths in all values of a table. -/
def Table.refs (t : Table α) : List String := t.entries.flatMap fun e => inner e.2

theorem RefOr.refs_of_item? {r : RefOr α} {a : α} (h : r.item? = some a) :
    inner a ⊆ r.refs inner := by
  cases r with
  | ref path => cases h
  | item b =>
      obtain rfl := Option.some.inj h
      exact List.Subset.refl _

theorem Table.refs_of_get? {t : Table α} {name : String} {a : α} (h : t.get? name = some a) :
    inner a ⊆ t.refs inner :=
  fun _ hpath => List.mem_flatMap.mpr ⟨(name, a), mem_of_get? h, hpath⟩

end

/-- The paths of the references in a parameter. -/
def Parameter.refs (p : Parameter) : List String := refsOfOption p.schema ++ refsOfOption p.items

/-- The paths of the references in the body of a request. -/
def RequestBody.refs (b : RequestBody) : List String := Table.refs refsOfOption b.content

/-- The paths of the references in a response. -/
def Response.refs (r : Response) : List String :=
  Table.refs refsOfOption r.content ++ refsOfOption r.schema

/-- The paths of the references in an operation. -/
def Operation.refs (op : Operation) : List String :=
  op.parameters.flatMap (RefOr.refs Parameter.refs) ++
    op.requestBody.toList.flatMap (RefOr.refs RequestBody.refs) ++
    op.responses.refs (RefOr.refs Response.refs)

/-- The paths of the references under a path. -/
def PathItem.refs (item : PathItem) : List String :=
  item.parameters.flatMap (RefOr.refs Parameter.refs) ++ item.operations.flatMap fun e => e.2.refs

/-- The paths of the references in what operations share. -/
def Components.refs (c : Components) : List String :=
  c.schemas.refs Schema.refs ++ c.responses.refs (RefOr.refs Response.refs) ++
    c.parameters.refs (RefOr.refs Parameter.refs) ++
    c.requestBodies.refs (RefOr.refs RequestBody.refs)

/-- The paths of all references in a description. -/
def Api.refs (api : Api) : List String :=
  api.paths.refs PathItem.refs ++ api.components.refs ++ api.definitions.refs Schema.refs ++
    api.parameters.refs (RefOr.refs Parameter.refs) ++
    api.responses.refs (RefOr.refs Response.refs)

/-! ### Where the references of a part stand -/

theorem Parameter.refs_effectiveSchema {p : Parameter} {s : Schema}
    (h : p.effectiveSchema = some s) : s.refs ⊆ p.refs := by
  unfold effectiveSchema at h
  unfold Parameter.refs
  split at h
  · next hs =>
    obtain rfl := Option.some.inj h
    rw [hs]
    exact List.subset_append_left _ _
  · obtain ⟨type, _, rfl⟩ := Option.map_eq_some_iff.mp h
    refine List.subset_append_of_subset_right _ ?_
    simp [Schema.refs, Shape.refs, refsOfProperties, refsOfAll]

theorem Content.refs_schemaFor {c : Content} {mediaType : String} {s : Schema}
    (h : c.schemaFor mediaType = some s) : s.refs ⊆ Table.refs refsOfOption c :=
  Table.refs_of_get? refsOfOption (Option.join_eq_some_iff.mp h)

theorem Content.refs_jsonSchema {c : Content} {s : Schema} (h : c.jsonSchema = some s) :
    s.refs ⊆ Table.refs refsOfOption c := by
  unfold jsonSchema at h
  split at h
  · next hjson =>
    obtain rfl := Option.some.inj h
    exact refs_schemaFor hjson
  split at h
  · next hnamed =>
    obtain rfl := Option.some.inj h
    obtain ⟨⟨mediaType, schema⟩, hentry, rfl⟩ := Option.bind_eq_some_iff.mp hnamed
    exact Table.refs_of_get? refsOfOption (Table.get?_of_mem (List.mem_of_find?_eq_some hentry))
  · exact refs_schemaFor h

theorem RequestBody.refs_jsonSchema {b : RequestBody} {s : Schema} (h : b.jsonSchema = some s) :
    s.refs ⊆ b.refs :=
  Content.refs_schemaFor h

theorem Response.refs_jsonSchema {r : Response} {s : Schema} (h : r.jsonSchema = some s) :
    s.refs ⊆ r.refs := by
  unfold jsonSchema at h
  unfold Response.refs
  split at h
  · next hcontent =>
    obtain rfl := Option.some.inj h
    exact List.subset_append_of_subset_left _ (Content.refs_jsonSchema hcontent)
  · rw [h]
    exact List.subset_append_right _ _

namespace Api

variable {api : Api} {name : String}

theorem refs_of_schemas {s : Schema} (h : api.schemas.get? name = some s) : s.refs ⊆ api.refs := by
  unfold schemas at h
  intro path hpath
  unfold Api.refs Components.refs
  simp only [List.mem_append]
  split at h
  · exact Or.inl (Or.inl (Or.inr (Table.refs_of_get? _ h hpath)))
  · exact Or.inl (Or.inl (Or.inl (Or.inr (Or.inl (Or.inl (Or.inl
      (Table.refs_of_get? _ h hpath)))))))

theorem refs_of_paths {item : PathItem} (h : api.paths.get? name = some item) :
    item.refs ⊆ api.refs := by
  intro path hpath
  unfold Api.refs
  simp only [List.mem_append]
  exact Or.inl (Or.inl (Or.inl (Or.inl (Table.refs_of_get? _ h hpath))))

theorem refs_of_declared? {α : Type} {inner : α → List String} {first second : Table (RefOr α)}
    {a : α} (h : (declared? first second name).bind RefOr.item? = some a) :
    inner a ⊆ first.refs (RefOr.refs inner) ++ second.refs (RefOr.refs inner) := by
  obtain ⟨r, hr, ha⟩ := Option.bind_eq_some_iff.mp h
  have hitem := RefOr.refs_of_item? inner ha
  unfold declared? at hr
  split at hr
  · next hfirst =>
    obtain rfl := Option.some.inj hr
    exact List.subset_append_of_subset_left _
      (List.Subset.trans hitem (Table.refs_of_get? _ hfirst))
  · exact List.subset_append_of_subset_right _
      (List.Subset.trans hitem (Table.refs_of_get? _ hr))

theorem refs_of_findParameter {p : Parameter} (h : api.findParameter name = some p) :
    p.refs ⊆ api.refs := by
  intro path hpath
  unfold Api.refs Components.refs
  simp only [List.mem_append]
  rcases List.mem_append.mp (refs_of_declared? h hpath) with hpath | hpath
  · exact Or.inl (Or.inl (Or.inl (Or.inr (Or.inl (Or.inr hpath)))))
  · exact Or.inl (Or.inr hpath)

theorem refs_of_findResponse {r : Response} (h : api.findResponse name = some r) :
    r.refs ⊆ api.refs := by
  intro path hpath
  unfold Api.refs Components.refs
  simp only [List.mem_append]
  rcases List.mem_append.mp (refs_of_declared? h hpath) with hpath | hpath
  · exact Or.inl (Or.inl (Or.inl (Or.inr (Or.inl (Or.inl (Or.inr hpath))))))
  · exact Or.inr hpath

theorem refs_of_findRequestBody {b : RequestBody} (h : api.findRequestBody name = some b) :
    b.refs ⊆ api.refs := by
  obtain ⟨r, hr, hb⟩ := Option.bind_eq_some_iff.mp h
  intro path hpath
  unfold Api.refs Components.refs
  simp only [List.mem_append]
  exact Or.inl (Or.inl (Or.inl (Or.inr (Or.inr
    (Table.refs_of_get? _ hr (RefOr.refs_of_item? _ hb hpath))))))

theorem refs_of_parameter? {r : RefOr Parameter} {p : Parameter} (h : api.parameter? r = some p) :
    p.refs ⊆ r.refs Parameter.refs ++ api.refs := by
  cases r with
  | item q =>
      obtain rfl := Option.some.inj h
      exact List.subset_append_left _ _
  | ref path =>
      obtain ⟨name, _, h⟩ := Option.bind_eq_some_iff.mp h
      exact List.subset_append_of_subset_right _ (refs_of_findParameter h)

end Api

theorem PathItem.refs_of_operation {item : PathItem} {method : Method} {op : Operation}
    (h : item.operation method = some op) : op.refs ⊆ item.refs := by
  intro path hpath
  refine List.mem_append_right _ (List.mem_flatMap.mpr ⟨(method, op), ?_, hpath⟩)
  exact mem_operations_iff.mpr h

theorem PathItem.refs_of_parameters {item : PathItem} :
    item.parameters.flatMap (RefOr.refs Parameter.refs) ⊆ item.refs :=
  List.subset_append_left _ _

namespace Operation

variable {op : Operation}

theorem refs_of_parameters : op.parameters.flatMap (RefOr.refs Parameter.refs) ⊆ op.refs := by
  unfold Operation.refs
  rw [List.append_assoc]
  exact List.subset_append_left _ _

theorem refs_of_requestBody {r : RefOr RequestBody} (h : op.requestBody = some r) :
    r.refs RequestBody.refs ⊆ op.refs := by
  intro path hpath
  unfold Operation.refs
  simp only [List.mem_append]
  exact Or.inl (Or.inr (List.mem_flatMap.mpr ⟨r, Option.mem_toList.mpr h, hpath⟩))

theorem refs_of_responses {status : String} {r : RefOr Response}
    (h : op.responses.get? status = some r) : r.refs Response.refs ⊆ op.refs :=
  fun _ hpath => List.mem_append_right _ (Table.refs_of_get? _ h hpath)

end Operation

theorem Binding.bodyRef?_mem {s : Schema} {path : String} (h : bodyRef? s = some path) :
    path ∈ s.refs := by
  have of_part : ∀ {shape : Shape} {o : Option Schema}, o.bind Schema.refPath? = some path →
      (∀ s ∈ o, s ∈ shape.items ∨ s ∈ shape.allOf) → path ∈ shape.refs := by
    intro shape o ho hmem
    obtain ⟨s, hs, hpath⟩ := Option.bind_eq_some_iff.mp ho
    cases s with
    | inline _ => cases hpath
    | ref path' =>
        obtain rfl := Option.some.inj hpath
        exact Shape.refs_of_mem (Or.inr (hmem _ hs)) (by simp [Schema.refs])
  cases s with
  | ref path' =>
      obtain rfl := Option.some.inj h
      simp [Schema.refs]
  | inline shape =>
      unfold bodyRef? orElse at h
      dsimp only at h
      split at h
      · next hfirst =>
        obtain rfl := Option.some.inj h
        exact of_part hfirst fun s hs => Or.inr (List.mem_of_mem_head? hs)
      · exact of_part h fun s hs => Or.inl hs

end ApiTypes
