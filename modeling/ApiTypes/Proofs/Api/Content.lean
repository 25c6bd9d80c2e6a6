import ApiTypes.Api.Body
import ApiTypes.Proofs.Tables

/-! # The schema of JSON content

JSON itself comes first, then the other media types that name JSON, then the one that stands for all.
The lookup follows this order of preference but for one case: where the first entry that names JSON
has no schema, be it JSON itself or another, it passes over all later ones that name JSON
(`jsonSchema_eq_preferredSchema_iff`).

Main definitions: `Content.otherJsonSchema`, `Content.preferredSchema`, `Content.PassesOver`. -/

namespace ApiTypes.Content

/-- The schema of the first entry that names JSON and has one, other than JSON itself. -/
def otherJsonSchema (c : Content) : Option Schema :=
  c.entries.findSome? fun e => if namesJson e.1 = true ∧ e.1 ≠ jsonType then e.2 else none

/-- The schema of JSON itself, else of the first other entry that names JSON and has one, else of the
media type that stands for all. -/
def preferredSchema (c : Content) : Option Schema :=
  (c.schemaFor jsonType).or (c.otherJsonSchema.or (c.schemaFor anyType))

/-- JSON itself has no schema, and the first entry that names JSON has none either. -/
def PassesOver (c : Content) : Prop :=
  c.schemaFor jsonType = none ∧ ∃ before name after, c.entries = before ++ (name, none) :: after ∧
    namesJson name = true ∧ ∀ e ∈ before, namesJson e.1 = false

variable {c : Content}

/-! ### The steps of the lookup -/

theorem jsonSchema_eq (c : Content) : c.jsonSchema = (c.schemaFor jsonType).or
    ((((c.entries.find? fun e => namesJson e.1).map Prod.snd).join).or (c.schemaFor anyType)) := by
  have hjoin : ((c.entries.find? fun e => namesJson e.1).map Prod.snd).join =
      (c.entries.find? fun e => namesJson e.1).bind (·.2) := by
    cases c.entries.find? fun e => namesJson e.1 <;> rfl
  unfold jsonSchema
  rw [hjoin]
  cases c.schemaFor jsonType with
  | some s => rfl
  | none => cases (c.entries.find? fun e => namesJson e.1).bind (·.2) <;> rfl

theorem schemaFor_of_mem {name : String} {schema : Option Schema} (h : (name, schema) ∈ c.entries) :
    c.schemaFor name = schema := by
  unfold schemaFor
  rw [Table.get?_of_mem h]
  rfl

theorem schemaFor_eq_none_iff {name : String} :
    c.schemaFor name = none ↔ ∀ e ∈ c.entries, e.1 = name → e.2 = none := by
  constructor
  · rintro h ⟨_, schema⟩ he rfl
    rw [← schemaFor_of_mem he, h]
  · intro h
    unfold schemaFor
    cases hget : c.get? name with
    | none => rfl
    | some schema => exact h (name, schema) (Table.mem_of_get? hget) rfl

theorem find?_namesJson_eq_some_iff {name : String} {schema : Option Schema} :
    (c.entries.find? fun e => namesJson e.1) = some (name, schema) ↔
      ∃ before after, c.entries = before ++ (name, schema) :: after ∧ namesJson name = true ∧
        ∀ e ∈ before, namesJson e.1 = false := by
  simp only [List.find?_eq_some_iff_append, Bool.not_eq_true']
  constructor
  · rintro ⟨hname, before, after, heq, hbefore⟩
    exact ⟨before, after, heq, hname, hbefore⟩
  · rintro ⟨before, after, heq, hname, hbefore⟩
    exact ⟨hname, before, after, heq, hbefore⟩

/-- Where the first entry that names JSON has no schema, only the one that stands for all is left. -/
theorem PassesOver.jsonSchema_eq (h : c.PassesOver) : c.jsonSchema = c.schemaFor anyType := by
  obtain ⟨hjson, before, name, after, hfirst⟩ := h
  rw [Content.jsonSchema_eq, hjson, find?_namesJson_eq_some_iff.mpr ⟨before, after, hfirst⟩]
  rfl

/-- Where it has one, or JSON itself has, the order of preference is followed. -/
theorem jsonSchema_eq_preferredSchema (h : ¬ c.PassesOver) : c.jsonSchema = c.preferredSchema := by
  unfold preferredSchema
  rw [jsonSchema_eq]
  cases hjson : c.schemaFor jsonType with
  | some s => rfl
  | none =>
      congr 2
      unfold otherJsonSchema
      cases hfirst : c.entries.find? fun e => namesJson e.1 with
      | none =>
          refine (List.findSome?_eq_none_iff.mpr fun e he => if_neg fun hother => ?_).symm
          exact absurd hother.1 (by simpa using List.find?_eq_none.mp hfirst e he)
      | some first =>
          obtain ⟨name, schema⟩ := first
          obtain ⟨before, after, heq, hname, hbefore⟩ := find?_namesJson_eq_some_iff.mp hfirst
          cases schema with
          | none => exact absurd ⟨hjson, before, name, after, heq, hname, hbefore⟩ h
          | some s =>
              have hother : name ≠ jsonType := by
                rintro rfl
                have hmem : (jsonType, some s) ∈ c.entries := heq ▸ by simp
                rw [schemaFor_of_mem hmem] at hjson
                cases hjson
              refine (List.findSome?_eq_some_iff.mpr ⟨before, _, after, heq, ?_, ?_⟩).symm
              · exact if_pos ⟨hname, hother⟩
              · intro e he
                exact if_neg fun hand => absurd hand.1 (by simp [hbefore e he])

theorem preferredSchema_eq_none_iff : c.preferredSchema = none ↔
    ∀ e ∈ c.entries, namesJson e.1 = true ∨ e.1 = anyType → e.2 = none := by
  unfold preferredSchema otherJsonSchema
  rw [Option.or_eq_none_iff, Option.or_eq_none_iff, schemaFor_eq_none_iff, schemaFor_eq_none_iff,
    List.findSome?_eq_none_iff]
  constructor
  · rintro ⟨hjson, hother, hany⟩ e he (hname | hname)
    · by_cases h : e.1 = jsonType
      · exact hjson e he h
      · exact (if_pos ⟨hname, h⟩).symm.trans (hother e he)
    · exact hany e he hname
  · intro h
    refine ⟨fun e he hname => h e he (.inl ?_), fun e he => ?_, fun e he hname => h e he (.inr hname)⟩
    · rw [hname]
      decide +kernel
    · split
      · next hand => exact h e he (.inl hand.1)
      · rfl

/-! ### The order of preference -/

/-- The schema of JSON content is the preferred one unless the first entry that names JSON has none;
then it is that of the media type for all, and so the preferred one exactly if no other entry that
names JSON has a schema, or the first that has one has the same.  There is none exactly if no entry
in question has a schema, or those that have one are passed over. -/
theorem jsonSchema_eq_preferredSchema_iff (c : Content) :
    (¬ c.PassesOver → c.jsonSchema = c.preferredSchema) ∧
      (c.PassesOver → c.jsonSchema = c.schemaFor anyType) ∧
      (c.jsonSchema = c.preferredSchema ↔ c.PassesOver →
        c.otherJsonSchema = none ∨ c.otherJsonSchema = c.schemaFor anyType) ∧
      (c.jsonSchema = none ↔ c.PassesOver ∧ c.schemaFor anyType = none ∨
        ∀ e ∈ c.entries, namesJson e.1 = true ∨ e.1 = anyType → e.2 = none) := by
  refine ⟨jsonSchema_eq_preferredSchema, PassesOver.jsonSchema_eq, ?_, ?_⟩
  · by_cases h : c.PassesOver
    · rw [h.jsonSchema_eq, forall_prop_of_true h]
      unfold preferredSchema
      rw [h.1, Option.none_or]
      cases c.otherJsonSchema with
      | none => simp
      | some s => simp [eq_comm]
    · exact iff_of_true (jsonSchema_eq_preferredSchema h) fun hover => absurd hover h
  · rw [← preferredSchema_eq_none_iff]
    by_cases h : c.PassesOver
    · rw [h.jsonSchema_eq, and_iff_right h]
      refine ⟨.inl, ?_⟩
      rintro (hany | hnone)
      · exact hany
      · unfold preferredSchema at hnone
        exact (Option.or_eq_none_iff.mp (Option.or_eq_none_iff.mp hnone).2).2
    · rw [jsonSchema_eq_preferredSchema h]
      exact ⟨.inr, fun hor => hor.resolve_left fun hand => h hand.1⟩

/-- Content with an entry for JSON that has no schema, and one for JSON of a vendor that has. -/
def vendorBook : Content := Table.ofList
  [("application/json", none), ("application/vnd.api+json", some (.ref "#/definitions/Book"))]

/-- The entry without a schema hides the one that has one. -/
theorem vendorBook_hidden : vendorBook.jsonSchema = none ∧
    vendorBook.preferredSchema = some (.ref "#/definitions/Book") := by
  constructor <;> rfl

end ApiTypes.Content
