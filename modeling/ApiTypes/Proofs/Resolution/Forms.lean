import ApiTypes.Proofs.Sequencing
import ApiTypes.Resolution.Expansion
import Mathlib.Tactic.Choose

/-! # What a schema is expanded from

An inline schema is expanded from some of the schemas in it, its *parts*: all properties, the
items, or the first of `allOf`, as its form says.  Expansion is one equation over the parts
(`expand_inline`).  The names that are not resolved in the result are those of the parts
(`pendingTargets_assemble`), and without descriptions it is made of the parts without theirs
(`bare_assemble`).

Main definitions: `Shape.parts`, `Shape.assemble`, `Descriptor.bare`. -/

namespace ApiTypes

/-! ### Induction -/

/-- Induction over a schema and all schemas under its properties, items and `allOf`. -/
theorem Schema.nested {P : Schema → Prop} (ref : ∀ path, P (.ref path))
    (inline : ∀ shape : Shape, (∀ p ∈ shape.properties, P p.2) → (∀ s ∈ shape.items, P s) →
      (∀ s ∈ shape.allOf, P s) → P (.inline shape)) (s : Schema) : P s := by
  refine @Schema.rec P (fun shape => P (.inline shape)) (fun l => ∀ p ∈ l, P p.2)
    (fun o => ∀ s ∈ o, P s) (fun l => ∀ s ∈ l, P s) (fun p => P p.2) ref (fun _ h => h) ?_ (by simp)
    ?_ (by simp) (by simp) (by simp) ?_ (fun _ _ h => h) s
  · intro type description default properties required items allOf oneOf anyOf enum hp hi ha _ _
    exact inline _ hp hi ha
  · intro p rest hp hrest
    exact List.forall_mem_cons.mpr ⟨hp, hrest⟩
  · intro s rest hs hrest
    exact List.forall_mem_cons.mpr ⟨hs, hrest⟩

/-! ### Parts -/

/-- The schemas in a shape that its type is made of. -/
def Shape.parts (shape : Shape) : List Schema :=
  match shape.form with
  | .object => shape.properties.map Prod.snd
  | .extension | .firstPart => shape.allOf.head?.toList
  | .array => shape.items.toList
  | .enumeration _ | .primitive _ | .record | .any => []

/-- The type of a shape, from what the schemas in it are and what is said about them. -/
def Shape.assemble (shape : Shape) (about : Schema → Option String) (type : Schema → Descriptor) :
    Descriptor :=
  match shape.form with
  | .enumeration base => .enumeration base shape.enum
  | .primitive p => .primitive p
  | .object => .object (shape.properties.map fun p =>
      { key := p.1, type := type p.2, description := about p.2,
        required := shape.required.contains p.1, default := p.2.default? })
  | .extension =>
    match shape.allOf.head? with
    | some first => (type first).asObject
    | none => .record
  | .array =>
    match shape.items with
    | some item => .array (type item)
    | none => .array .any
  | .firstPart =>
    match shape.allOf.head? with
    | some first => type first
    | none => .any
  | .record => .record
  | .any => .any

theorem Shape.mem_of_mem_parts {shape : Shape} {s : Schema} (h : s ∈ shape.parts) :
    (∃ p ∈ shape.properties, p.2 = s) ∨ s ∈ shape.items ∨ s ∈ shape.allOf := by
  unfold parts at h
  split at h
  · exact Or.inl (List.mem_map.mp h)
  · exact Or.inr (Or.inr (List.mem_of_mem_head? (Option.mem_toList.mp h)))
  · exact Or.inr (Or.inr (List.mem_of_mem_head? (Option.mem_toList.mp h)))
  · exact Or.inr (Or.inl (Option.mem_toList.mp h))
  all_goals cases h

theorem Schema.induction {P : Schema → Prop} (ref : ∀ path, P (.ref path))
    (inline : ∀ shape : Shape, (∀ s ∈ shape.parts, P s) → P (.inline shape)) : ∀ s, P s := by
  refine Schema.nested ref ?_
  intro shape hproperties hitems hallOf
  apply inline
  intro s hs
  rcases Shape.mem_of_mem_parts hs with ⟨p, hp, rfl⟩ | hs | hs
  · exact hproperties p hp
  · exact hitems s hs
  · exact hallOf s hs

theorem Shape.assemble_congr {shape : Shape} {about : Schema → Option String}
    {f g : Schema → Descriptor} (h : ∀ s ∈ shape.parts, f s = g s) :
    shape.assemble about f = shape.assemble about g := by
  unfold parts at h
  unfold assemble
  cases hform : shape.form with
  | object =>
      rw [hform] at h
      have hp : ∀ p ∈ shape.properties, f p.2 = g p.2 := List.forall_mem_map.mp h
      simp only [Descriptor.object.injEq]
      exact List.map_congr_left fun p hp' => by rw [hp p hp']
  | extension =>
      rw [hform] at h
      cases hfirst : shape.allOf.head? with
      | none => rfl
      | some first => simp only [h first (by simp [hfirst])]
  | array =>
      rw [hform] at h
      cases hitems : shape.items with
      | none => rfl
      | some item => simp only [h item (by simp [hitems])]
  | firstPart =>
      rw [hform] at h
      cases hfirst : shape.allOf.head? with
      | none => rfl
      | some first => simp only [h first (by simp [hfirst])]
  | enumeration base => rfl
  | primitive p => rfl
  | record => rfl
  | any => rfl

/-! ### Expansion, part by part -/

instance : Inhabited Expansion := ⟨{ type := .any }⟩

theorem expandFields_eq {l : Lookup} (required : List String) {r : Schema → Expansion} :
    ∀ {properties : List (String × Schema)}, (∀ p ∈ properties, expand l p.2 = .ok (r p.2)) →
      expandFields l required properties = .ok (
        properties.map fun p =>
          { key := p.1, type := (r p.2).type, description := describe l p.2,
            required := required.contains p.1, default := p.2.default? },
        properties.any fun p => (r p.2).deferred)
  | [], _ => rfl
  | (key, s) :: rest, h => by
      have hs : expand l s = .ok (r s) := h _ List.mem_cons_self
      have hrest := expandFields_eq required fun p hp =>
        h p (List.mem_cons_of_mem _ hp)
      rw [expandFields, hs, hrest]
      rfl

theorem expandShape_eq (l : Lookup) (shape : Shape) : expandShape l shape =
    match shape.form with
    | .enumeration base => .ok { type := .enumeration base shape.enum }
    | .primitive p => .ok { type := .primitive p }
    | .object => do
      let (fields, deferred) ← expandFields l shape.required shape.properties
      .ok { type := .object fields, deferred }
    | .extension =>
      match shape.allOf with
      | first :: _ => do
        let e ← expand l first
        .ok { e with type := e.type.asObject }
      | [] => .ok { type := .record }
    | .array =>
      match shape.items with
      | some item => do
        let e ← expand l item
        .ok { e with type := .array e.type }
      | none => .ok { type := .array .any }
    | .firstPart =>
      match shape.allOf with
      | first :: _ => expand l first
      | [] => .ok { type := .any }
    | .record => .ok { type := .record }
    | .any => .ok { type := .any } := by
  cases shape
  exact expandShape.eq_def l _

/-- The expansion of an inline schema, from those of its parts. -/
theorem expand_inline {l : Lookup} {shape : Shape} {r : Schema → Expansion}
    (h : ∀ s ∈ shape.parts, expand l s = .ok (r s)) :
    expand l (.inline shape) = .ok {
      type := shape.assemble (describe l) fun s => (r s).type
      deferred := shape.parts.any fun s => (r s).deferred } := by
  rw [expand, expandShape_eq]
  unfold Shape.assemble
  unfold Shape.parts at h ⊢
  cases hform : shape.form with
  | object =>
      rw [hform] at h
      have hfields := expandFields_eq shape.required (List.forall_mem_map.mp h)
      simp only [hfields, List.any_map]
      rfl
  | extension =>
      rw [hform] at h
      cases hfirst : shape.allOf with
      | nil => rfl
      | cons first rest => simp [h first (by simp [hfirst])]; rfl
  | array =>
      rw [hform] at h
      cases hitems : shape.items with
      | none => rfl
      | some item => simp [h item (by simp [hitems])]; rfl
  | firstPart =>
      rw [hform] at h
      cases hfirst : shape.allOf with
      | nil => rfl
      | cons first rest => simp [h first (by simp [hfirst])]
  | enumeration base => rfl
  | primitive p => rfl
  | record => rfl
  | any => rfl

theorem expand_of_expandFields {l : Lookup} {required : List String} :
    ∀ {properties : List (String × Schema)} {r : List Field × Bool},
      expandFields l required properties = .ok r → ∀ p ∈ properties, ∃ e, expand l p.2 = .ok e
  | (key, s) :: rest, r, h, p, hp => by
      rw [expandFields, bind_eq_ok] at h
      obtain ⟨e, he, h⟩ := h
      obtain ⟨ofRest, hrest, _⟩ := bind_eq_ok.mp h
      rcases List.mem_cons.mp hp with rfl | hp
      · exact ⟨e, he⟩
      · exact expand_of_expandFields hrest p hp

theorem expand_part {l : Lookup} {shape : Shape} {e : Expansion}
    (h : expand l (.inline shape) = .ok e) : ∀ s ∈ shape.parts, ∃ e', expand l s = .ok e' := by
  rw [expand, expandShape_eq] at h
  intro s hs
  unfold Shape.parts at hs
  cases hform : shape.form with
  | object =>
      rw [hform] at h hs
      obtain ⟨p, hp, rfl⟩ := List.mem_map.mp hs
      obtain ⟨r, hr, _⟩ := bind_eq_ok.mp h
      exact expand_of_expandFields hr p hp
  | extension =>
      rw [hform] at h hs
      cases hfirst : shape.allOf with
      | nil => rw [hfirst] at hs; cases hs
      | cons first rest =>
          rw [hfirst] at h hs
          obtain rfl := List.mem_singleton.mp hs
          obtain ⟨e', he', _⟩ := bind_eq_ok.mp h
          exact ⟨e', he'⟩
  | array =>
      rw [hform] at h hs
      cases hitems : shape.items with
      | none => rw [hitems] at hs; cases hs
      | some item =>
          rw [hitems] at h hs
          obtain rfl := List.mem_singleton.mp hs
          obtain ⟨e', he', _⟩ := bind_eq_ok.mp h
          exact ⟨e', he'⟩
  | firstPart =>
      rw [hform] at h hs
      cases hfirst : shape.allOf with
      | nil => rw [hfirst] at hs; cases hs
      | cons first rest =>
          rw [hfirst] at h hs
          obtain rfl := List.mem_singleton.mp hs
          exact ⟨e, h⟩
  | enumeration base => rw [hform] at hs; cases hs
  | primitive p => rw [hform] at hs; cases hs
  | record => rw [hform] at hs; cases hs
  | any => rw [hform] at hs; cases hs

theorem expandFields_error {l : Lookup} {required : List String} {e : InvalidRef} :
    ∀ {properties : List (String × Schema)}, expandFields l required properties = .error e →
      ∃ p ∈ properties, expand l p.2 = .error e
  | (key, s) :: rest, h => by
      rw [expandFields] at h
      rcases bind_eq_error.mp h with h | ⟨_, _, h⟩
      · exact ⟨_, List.mem_cons_self, h⟩
      rcases bind_eq_error.mp h with h | ⟨_, _, h⟩
      · obtain ⟨p, hp, h⟩ := expandFields_error h
        exact ⟨p, List.mem_cons_of_mem _ hp, h⟩
      · cases h

/-- An inline schema fails to expand only where one of its parts does. -/
theorem expand_part_error {l : Lookup} {shape : Shape} {e : InvalidRef}
    (h : expand l (.inline shape) = .error e) : ∃ s ∈ shape.parts, expand l s = .error e := by
  rw [expand, expandShape_eq] at h
  unfold Shape.parts
  cases hform : shape.form with
  | object =>
      rw [hform] at h
      rcases bind_eq_error.mp h with h | ⟨_, _, h⟩
      · obtain ⟨p, hp, h⟩ := expandFields_error h
        exact ⟨p.2, List.mem_map_of_mem hp, h⟩
      · cases h
  | extension =>
      rw [hform] at h
      cases hfirst : shape.allOf with
      | nil => rw [hfirst] at h; cases h
      | cons first rest =>
          rw [hfirst] at h
          rcases bind_eq_error.mp h with h | ⟨_, _, h⟩
          · exact ⟨first, by simp, h⟩
          · cases h
  | array =>
      rw [hform] at h
      cases hitems : shape.items with
      | none => rw [hitems] at h; cases h
      | some item =>
          rw [hitems] at h
          rcases bind_eq_error.mp h with h | ⟨_, _, h⟩
          · exact ⟨item, by simp, h⟩
          · cases h
  | firstPart =>
      rw [hform] at h
      cases hfirst : shape.allOf with
      | nil => rw [hfirst] at h; cases h
      | cons first rest =>
          rw [hfirst] at h
          exact ⟨first, by simp, h⟩
  | enumeration base => rw [hform] at h; cases h
  | primitive p => rw [hform] at h; cases h
  | record => rw [hform] at h; cases h
  | any => rw [hform] at h; cases h

/-- An inline schema that is expanded is assembled from the expansions of its parts. -/
theorem exists_assembled {l : Lookup} {shape : Shape} {e : Expansion}
    (h : expand l (.inline shape) = .ok e) :
    ∃ r : Schema → Expansion, (∀ s ∈ shape.parts, expand l s = .ok (r s)) ∧
      e.type = shape.assemble (describe l) fun s => (r s).type := by
  choose! r hr using expand_part h
  refine ⟨r, hr, ?_⟩
  rw [expand_inline hr] at h
  rw [← Except.ok.inj h]

/-! ### Names that are not resolved -/

namespace Descriptor

theorem pendingInFields_eq : ∀ fields : List Field,
    pendingInFields fields = fields.flatMap fun f => f.type.pendingTargets
  | [] => rfl
  | f :: rest => by
      rw [pendingInFields, pendingInFields_eq rest, List.flatMap_cons]
      cases f
      rfl

theorem pendingTargets_asObject (d : Descriptor) : d.asObject.pendingTargets = d.pendingTargets := by
  cases d <;> rfl

end Descriptor

theorem pendingTargets_assemble (shape : Shape) (about : Schema → Option String)
    (type : Schema → Descriptor) :
    (shape.assemble about type).pendingTargets =
      shape.parts.flatMap fun s => (type s).pendingTargets := by
  unfold Shape.assemble Shape.parts
  cases shape.form with
  | object =>
      simp only [Descriptor.pendingTargets, Descriptor.pendingInFields_eq, List.flatMap_map]
  | extension =>
      cases shape.allOf.head? with
      | none => rfl
      | some first => simp [Descriptor.pendingTargets_asObject]
  | array =>
      cases shape.items with
      | none => rfl
      | some item => simp [Descriptor.pendingTargets]
  | firstPart =>
      cases shape.allOf.head? with
      | none => rfl
      | some first => simp
  | enumeration base => rfl
  | primitive p => rfl
  | record => rfl
  | any => rfl

/-! ### Descriptors without descriptions -/

namespace Descriptor

mutual
/-- The descriptor with no description on any of its fields. -/
def bare : Descriptor → Descriptor
  | .array item => .array item.bare
  | .object fields => .object (bareFields fields)
  | .primitive p => .primitive p
  | .enumeration base values => .enumeration base values
  | .record => .record
  | .any => .any
  | .pending name => .pending name

/-- The field with no description, its own included. -/
def bareField : Field → Field
  | ⟨key, type, _, required, origin, default⟩ => ⟨key, type.bare, none, required, origin, default⟩

/-- The fields with no description. -/
def bareFields : List Field → List Field
  | [] => []
  | f :: rest => bareField f :: bareFields rest
end

theorem bareFields_eq : ∀ fields : List Field, bareFields fields = fields.map bareField
  | [] => rfl
  | f :: rest => by rw [bareFields, bareFields_eq rest, List.map_cons]

theorem bare_asObject (d : Descriptor) : d.asObject.bare = d.bare.asObject := by
  cases d <;> rfl

end Descriptor

theorem bare_assemble (shape : Shape) (about : Schema → Option String) (type : Schema → Descriptor) :
    (shape.assemble about type).bare =
      shape.assemble (fun _ => none) fun s => (type s).bare := by
  unfold Shape.assemble
  cases shape.form with
  | object =>
      simp only [Descriptor.bare, Descriptor.bareFields_eq, List.map_map]
      rfl
  | extension =>
      cases shape.allOf.head? with
      | none => rfl
      | some first => exact Descriptor.bare_asObject _
  | array =>
      cases shape.items with
      | none => rfl
      | some item => rfl
  | firstPart =>
      cases shape.allOf.head? with
      | none => rfl
      | some first => rfl
  | enumeration base => rfl
  | primitive p => rfl
  | record => rfl
  | any => rfl

/-! ### References of the parts -/

theorem propertyReferences_mem : ∀ {properties : List (String × Schema)} {names : List String},
    propertyReferences properties = .ok names → ∀ p ∈ properties,
      ∃ found, p.2.references = .ok found ∧ found ⊆ names
  | (key, s) :: rest, names, h, p, hp => by
      rw [propertyReferences, bind_eq_ok] at h
      obtain ⟨ofFirst, hfirst, h⟩ := h
      obtain ⟨ofRest, hrest, h⟩ := bind_eq_ok.mp h
      obtain rfl := Except.ok.inj h
      rcases List.mem_cons.mp hp with rfl | hp
      · exact ⟨ofFirst, hfirst, List.subset_append_left _ _⟩
      · obtain ⟨found, hfound, hsub⟩ := propertyReferences_mem hrest p hp
        exact ⟨found, hfound, List.subset_append_of_subset_right _ hsub⟩

/-- The names that a schema refers to, where there is one. -/
def optionReferences : Option Schema → Except InvalidRef (List String)
  | some s => s.references
  | none => .ok []

theorem references_eq (shape : Shape) : shape.references = (do
    let ofProperties ← propertyReferences shape.properties
    let ofItems ← optionReferences shape.items
    let ofFirst ← optionReferences shape.allOf.head?
    .ok (ofProperties ++ ofItems ++ ofFirst)) := by
  obtain ⟨type, description, default, properties, required, items, allOf, oneOf, anyOf, enum⟩ := shape
  rw [Shape.references]
  cases items <;> cases allOf <;> rfl

/-- Resolution enters only schemas whose references are edges. -/
theorem references_part {shape : Shape} {names : List String}
    (h : (Schema.inline shape).references = .ok names) {s : Schema} (hs : s ∈ shape.parts) :
    ∃ found, s.references = .ok found ∧ found ⊆ names := by
  rw [Schema.references, references_eq, bind_eq_ok] at h
  obtain ⟨ofProperties, hproperties, h⟩ := h
  obtain ⟨ofItems, hitems, h⟩ := bind_eq_ok.mp h
  obtain ⟨ofFirst, hfirst, h⟩ := bind_eq_ok.mp h
  obtain rfl := Except.ok.inj h
  have first : ∀ s ∈ shape.allOf.head?.toList, ∃ found, s.references = .ok found ∧
      found ⊆ ofProperties ++ ofItems ++ ofFirst := by
    intro s hs
    rw [Option.mem_toList.mp hs] at hfirst
    exact ⟨ofFirst, hfirst, List.subset_append_right _ _⟩
  unfold Shape.parts at hs
  cases hform : shape.form with
  | object =>
      rw [hform] at hs
      obtain ⟨p, hp, rfl⟩ := List.mem_map.mp hs
      obtain ⟨found, hfound, hsub⟩ := propertyReferences_mem hproperties p hp
      refine ⟨found, hfound, ?_⟩
      rw [List.append_assoc]
      exact List.subset_append_of_subset_left _ hsub
  | extension => rw [hform] at hs; exact first s hs
  | array =>
      rw [hform] at hs
      rw [Option.mem_toList.mp hs] at hitems
      refine ⟨ofItems, hitems, ?_⟩
      exact List.subset_append_of_subset_left _ (List.subset_append_right _ _)
  | firstPart => rw [hform] at hs; exact first s hs
  | enumeration base => rw [hform] at hs; cases hs
  | primitive p => rw [hform] at hs; cases hs
  | record => rw [hform] at hs; cases hs
  | any => rw [hform] at hs; cases hs

theorem refName_of_references {path : String} {names : List String}
    (h : (Schema.ref path).references = .ok names) : ∃ name, refName path = .ok name ∧ names = [name] := by
  rw [Schema.references, bind_eq_ok] at h
  obtain ⟨name, hname, h⟩ := h
  exact ⟨name, hname, (Except.ok.inj h).symm⟩

end ApiTypes
