import ApiTypes.Proofs.Binding.Keys
import ApiTypes.Reading.Text

/-! # Keys of what is read

A mapping that is read has no key twice, so no schema of a description that is read, in either
format, has a property twice (`keyed_of_ofText`). -/

namespace ApiTypes

namespace Reading

instance : Stepwise Reading where
  Yields r a := ∃ left rest, r left = some (a, rest)
  yields_pure_iff := by
    intro α a b
    constructor
    · rintro ⟨left, rest, h⟩
      exact (Prod.mk.inj (Option.some.inj h)).1
    · rintro rfl
      exact ⟨0, 0, rfl⟩
  exists_of_yields_bind := by
    rintro α β x f b ⟨left, rest, h⟩
    obtain ⟨⟨a, between⟩, ha, hb⟩ := Option.bind_eq_some_iff.mp h
    exact ⟨a, ⟨left, between, ha⟩, between, rest, hb⟩

/-! ### What is read everywhere -/

/-- Whatever is read at any place has the property. -/
def Gives {π α : Type} (read : π → Reading α) (P : α → Prop) : Prop :=
  ∀ p a, Yields (read p) a → P a

section
variable {π α : Type} {read : π → Reading α} {P : α → Prop} {fs : Fields π} {name : String}

theorem not_yields_failure {a : α} : ¬ Yields (failure : Reading α) a := by
  rintro ⟨left, rest, h⟩
  cases h

theorem eq_some_of_yields_ofOption {o : Option α} {a : α} (h : Yields (ofOption o) a) :
    o = some a := by
  obtain ⟨_, _, h⟩ := h
  obtain ⟨_, ha, heq⟩ := Option.map_eq_some_iff.mp h
  rw [ha, (Prod.mk.inj heq).1]

theorem Gives.fieldOr (h : Gives read P) {missing : α} (hmissing : P missing) {a : α}
    (ha : Yields (Place.fieldOr fs name missing read) a) : P a := by
  unfold Place.fieldOr at ha
  split at ha
  · rw [← yields_pure_iff.mp ha]
    exact hmissing
  · exact h _ a ha

variable [Place π]

theorem Gives.listField (h : Gives read P) {l : List α}
    (hl : Yields (Place.listField fs name read) l) : ∀ a ∈ l, P a := by
  have hlist : Gives (Place.listOf read) fun l => ∀ a ∈ l, P a := by
    intro p l hl a ha
    obtain ⟨items, _, hl⟩ := hl.bind
    obtain ⟨item, _, ha⟩ := hl.exists_of_mem ha
    exact h item a ha
  exact hlist.fieldOr (by simp) hl

theorem Gives.optionField (h : Gives read P) {o : Option α}
    (ho : Yields (Place.optionField fs name read) o) : ∀ a ∈ o, P a := by
  have hoption : Gives (Place.optionOf read) fun o => ∀ a ∈ o, P a := by
    intro p o ho a ha
    obtain ⟨place, _, ho⟩ := ho.bind
    cases place with
    | none =>
        rw [← yields_pure_iff.mp ho] at ha
        cases ha
    | some q =>
        obtain ⟨b, hb, rfl⟩ := ho.map
        obtain rfl := Option.some.inj ha
        exact h q b hb
  exact hoption.fieldOr (by simp) ho

theorem Gives.entriesOf (h : Gives read P) :
    Gives (Place.entriesOf read) fun l => ∀ e ∈ l, P e.2 := by
  intro p l hl e he
  obtain ⟨entries, _, hl⟩ := hl.bind
  obtain ⟨entry, _, hentry⟩ := hl.exists_of_mem he
  obtain ⟨a, ha, rfl⟩ := hentry.map
  exact h entry.2 a ha

theorem Gives.table (h : Gives read P) : Gives (table read) fun t => t.Holds fun _ a => P a := by
  intro p t ht
  obtain ⟨l, hl, rfl⟩ := ht.map
  exact Table.holds_ofList (h.entriesOf p l hl)

theorem Gives.tableField (h : Gives read P) {t : Table α}
    (ht : Yields (tableField fs name read) t) : t.Holds fun _ a => P a :=
  h.table.fieldOr Table.holds_empty ht

end

theorem Gives.refOr {π α : Type} [Place π] {read : Data → Reading α} {P : α → Prop}
    (h : Gives read P) : Gives (refOr (π := π) read) (RefOr.Holds P) := by
  intro p r hr
  obtain ⟨d, _, hr⟩ := hr.bind
  split at hr
  · rw [← yields_pure_iff.mp hr]
    intro a ha
    cases ha
  · obtain ⟨a, ha, rfl⟩ := hr.map
    intro b hb
    obtain rfl := Option.some.inj hb
    exact h d a ha

/-! ### Schemas -/

theorem Gives.shapeOf {read : Data → Reading Schema} (h : Gives read Schema.Keyed) :
    Gives (shapeOf read) fun shape => Schema.Keyed (.inline shape) := by
  intro d shape hshape
  obtain ⟨fs, _, hshape⟩ := hshape.bind
  obtain ⟨type, _, hshape⟩ := hshape.bind
  obtain ⟨description, _, hshape⟩ := hshape.bind
  obtain ⟨default, _, hshape⟩ := hshape.bind
  obtain ⟨properties, hproperties, hshape⟩ := hshape.bind
  obtain ⟨required, _, hshape⟩ := hshape.bind
  obtain ⟨items, hitems, hshape⟩ := hshape.bind
  obtain ⟨allOf, hallOf, hshape⟩ := hshape.bind
  obtain ⟨oneOf, _, hshape⟩ := hshape.bind
  obtain ⟨anyOf, _, hshape⟩ := hshape.bind
  obtain ⟨enum, _, hshape⟩ := hshape.bind
  obtain rfl := yields_pure_iff.mp hshape
  have hentries : (properties.map Prod.fst).Nodup ∧ ∀ p ∈ properties, p.2.Keyed := by
    refine Gives.fieldOr (P := fun properties : List (String × Schema) =>
      (properties.map Prod.fst).Nodup ∧ ∀ p ∈ properties, p.2.Keyed) ?_ (by simp) hproperties
    intro p l hl
    obtain ⟨entries, hentries, hl⟩ := hl.bind
    obtain rfl := yields_pure_iff.mp hl
    have hkeyed : (Table.ofList entries).Holds fun _ s => s.Keyed :=
      Table.holds_ofList (h.entriesOf p entries hentries)
    exact ⟨Table.nodup_keys _, Table.holds_iff.mp hkeyed⟩
  refine .inline hentries.1 ?_
  intro s hs
  rcases Shape.mem_of_mem_parts hs with ⟨p, hp, rfl⟩ | hs | hs
  · exact hentries.2 p hp
  · exact h.optionField hitems s hs
  · exact h.listField hallOf s hs

theorem gives_schemaWithin (levels : Nat) : Gives (schemaWithin levels) Schema.Keyed := by
  induction levels with
  | zero => exact fun _ _ h => absurd h not_yields_failure
  | succ levels ih =>
      intro d s hs
      rw [schemaWithin] at hs
      split at hs
      · rw [← yields_pure_iff.mp hs]
        exact .ref _
      · obtain ⟨shape, hshape, rfl⟩ := hs.map
        exact ih.shapeOf d shape hshape

section
variable {π : Type} [Place π]

theorem gives_schema : Gives (schema (π := π)) Schema.Keyed := by
  intro p s hs
  obtain ⟨d, _, hs⟩ := hs.bind
  exact gives_schemaWithin _ d s hs

/-! ### Descriptions -/

theorem gives_parameter : Gives (parameter (π := π)) Parameter.Keyed := by
  intro p a ha
  obtain ⟨fs, _, ha⟩ := ha.bind
  obtain ⟨name, _, ha⟩ := ha.bind
  obtain ⟨location, _, ha⟩ := ha.bind
  obtain ⟨description, _, ha⟩ := ha.bind
  obtain ⟨required, _, ha⟩ := ha.bind
  obtain ⟨schema, hschema, ha⟩ := ha.bind
  obtain ⟨type, _, ha⟩ := ha.bind
  obtain ⟨items, _, ha⟩ := ha.bind
  obtain ⟨enum, _, ha⟩ := ha.bind
  obtain ⟨default, _, ha⟩ := ha.bind
  obtain rfl := yields_pure_iff.mp ha
  exact gives_schema.optionField hschema

theorem gives_content :
    Gives (content (π := π)) fun c => c.Holds fun _ schema => ∀ s ∈ schema, s.Keyed := by
  apply Gives.table
  intro p schema hschema
  obtain ⟨fs, _, hschema⟩ := hschema.bind
  exact gives_schema.optionField hschema

theorem gives_requestBody : Gives (requestBody (π := π)) RequestBody.Keyed := by
  intro p b hb
  obtain ⟨fs, _, hb⟩ := hb.bind
  obtain ⟨description, _, hb⟩ := hb.bind
  obtain ⟨content, hcontent, hb⟩ := hb.bind
  obtain ⟨required, _, hb⟩ := hb.bind
  obtain rfl := yields_pure_iff.mp hb
  exact gives_content.fieldOr Table.holds_empty hcontent

theorem gives_operation : Gives (operation (π := π)) Operation.Keyed := by
  intro p op hop
  obtain ⟨fs, _, hop⟩ := hop.bind
  obtain ⟨operationId, _, hop⟩ := hop.bind
  obtain ⟨summary, _, hop⟩ := hop.bind
  obtain ⟨description, _, hop⟩ := hop.bind
  obtain ⟨tags, _, hop⟩ := hop.bind
  obtain ⟨parameters, hparameters, hop⟩ := hop.bind
  obtain ⟨requestBody, hbody, hop⟩ := hop.bind
  obtain ⟨responses, _, hop⟩ := hop.bind
  obtain rfl := yields_pure_iff.mp hop
  exact ⟨gives_parameter.refOr.listField hparameters, gives_requestBody.refOr.optionField hbody⟩

theorem gives_pathItem : Gives (pathItem (π := π)) PathItem.Keyed := by
  intro p item hitem
  obtain ⟨fs, _, hitem⟩ := hitem.bind
  obtain ⟨operations, hoperations, hitem⟩ := hitem.bind
  obtain ⟨parameters, hparameters, hitem⟩ := hitem.bind
  obtain rfl := yields_pure_iff.mp hitem
  refine ⟨gives_parameter.refOr.listField hparameters, ?_⟩
  intro method op hop
  obtain ⟨before, after, hsplit, _⟩ := List.lookup_eq_some_iff.mp (Option.join_eq_some_iff.mp hop)
  have hmem : (method, some op) ∈ operations := by simp [hsplit]
  obtain ⟨m, _, hread⟩ := hoperations.exists_of_mem hmem
  obtain ⟨o, ho, heq⟩ := hread.map
  obtain ⟨rfl, rfl⟩ := Prod.mk.inj heq
  exact gives_operation.optionField ho op rfl

theorem gives_components : Gives (components (π := π)) Components.Keyed := by
  intro p c hc
  obtain ⟨fs, _, hc⟩ := hc.bind
  obtain ⟨schemas, hschemas, hc⟩ := hc.bind
  obtain ⟨responses, _, hc⟩ := hc.bind
  obtain ⟨parameters, hparameters, hc⟩ := hc.bind
  obtain ⟨requestBodies, hbodies, hc⟩ := hc.bind
  obtain rfl := yields_pure_iff.mp hc
  exact ⟨gives_schema.tableField hschemas, gives_parameter.refOr.tableField hparameters,
    gives_requestBody.refOr.tableField hbodies⟩

theorem gives_api : Gives (api (π := π)) Api.Keyed := by
  intro p a ha
  obtain ⟨fs, _, ha⟩ := ha.bind
  obtain ⟨openapi, _, ha⟩ := ha.bind
  obtain ⟨swagger, _, ha⟩ := ha.bind
  obtain ⟨info, _, ha⟩ := ha.bind
  obtain ⟨paths, hpaths, ha⟩ := ha.bind
  obtain ⟨components, hcomponents, ha⟩ := ha.bind
  obtain ⟨definitions, hdefinitions, ha⟩ := ha.bind
  obtain ⟨parameters, hparameters, ha⟩ := ha.bind
  obtain ⟨responses, _, ha⟩ := ha.bind
  obtain rfl := yields_pure_iff.mp ha
  exact {
    paths := gives_pathItem.tableField hpaths
    components := gives_components.fieldOr
      ⟨Table.holds_empty, Table.holds_empty, Table.holds_empty⟩ hcomponents
    definitions := gives_schema.tableField hdefinitions
    parameters := gives_parameter.refOr.tableField hparameters }

end

end Reading

/-! ### Texts -/

namespace Api

theorem checkVersion_eq {api api' : Api} (h : api.checkVersion = .ok api') : api' = api := by
  unfold checkVersion at h
  split at h
  · split at h <;> simp_all
  · split at h <;> simp_all
  · cases h

theorem keyed_of_result? {π : Type} [Place π] {p : π} {aliases : Nat} {api : Api}
    (h : (Reading.api p).result? aliases = some api) : api.Keyed := by
  obtain ⟨⟨api', rest⟩, hread, rfl⟩ := Option.map_eq_some_iff.mp h
  exact Reading.gives_api p api' ⟨aliases, rest, hread⟩

/-- No schema of a description that is read has a property twice. -/
theorem keyed_of_ofText {text : String} {api : Api} (h : ofText text = .ok api) : api.Keyed := by
  unfold ofText at h
  split at h
  · unfold ofJson at h
    split at h
    · cases h
    · next read hread =>
      obtain ⟨value, _, hread⟩ := Option.bind_eq_some_iff.mp hread
      rw [checkVersion_eq h]
      exact keyed_of_result? hread
  · unfold ofYaml at h
    split at h
    · cases h
    · next read hread =>
      obtain ⟨document, _, hread⟩ := Option.bind_eq_some_iff.mp hread
      rw [checkVersion_eq h]
      exact keyed_of_result? hread

end Api

end ApiTypes
