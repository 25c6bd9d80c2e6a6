import ApiTypes.Proofs.Resolution.Locality

/-! # Where resolution fails

Before anything is resolved, every entry is walked through for its references: its properties, its
items and the first part of its `allOf`, at any depth and whatever its type.  Resolution fails exactly
where a reference met on this walk names nothing, for the first one; what expansion follows is met on
the walk, so no pass fails after that (`resolveSchemas_eq_error_iff`).

Main definitions: `NamesNothing`, `Schema.walk`, `Schema.pruned`. -/

namespace ApiTypes

/-! ### References that name nothing -/

/-- Nothing follows the last slash of the path. -/
def NamesNothing (path : String) : Prop := ∀ c ∈ path.toList.getLast?, c = '/'

instance : DecidablePred NamesNothing := fun path =>
  decidable_of_iff (path.toList.getLast?.all (· == '/') = true) (by
    unfold NamesNothing
    cases path.toList.getLast? <;> simp)

theorem namesNothing_of_refName {path : String} {e : InvalidRef} (h : refName path = .error e) :
    NamesNothing path := by
  have hempty : (path.toList.reverse.takeWhile (· ≠ '/')).reverse.isEmpty = true := by
    unfold refName Text.lastSegment at h
    by_contra hne
    rw [if_neg hne] at h
    cases h
  intro c hc
  rw [List.getLast?_eq_head?_reverse] at hc
  obtain ⟨rest, hrest⟩ := List.head?_eq_some_iff.mp hc
  rw [hrest] at hempty
  by_contra hne
  simp [hne] at hempty

theorem refName_of_namesNothing {path : String} (h : NamesNothing path) :
    refName path = .error ⟨path⟩ := by
  have hempty : (Text.lastSegment '/' path.toList).isEmpty = true := by
    unfold NamesNothing at h
    rw [List.getLast?_eq_head?_reverse] at h
    unfold Text.lastSegment
    cases hlast : path.toList.reverse with
    | nil => rfl
    | cons c rest =>
        obtain rfl : c = '/' := h c (by rw [hlast]; rfl)
        rfl
  unfold refName
  exact if_pos hempty

theorem mapM_refName_eq_error_iff {paths : List String} {e : InvalidRef} :
    paths.mapM refName = .error e ↔ paths.find? (fun path => NamesNothing path) = some e.path := by
  induction paths with
  | nil => simp [pure, Except.pure]
  | cons path rest ih =>
      rw [mapM_cons_eq_error_iff, List.find?_cons]
      by_cases hnothing : NamesNothing path
      · simp only [refName_of_namesNothing hnothing, hnothing, decide_true]
        constructor
        · rintro (h | ⟨⟨_, h⟩, _⟩)
          · rw [← Except.error.inj h]
          · cases h
        · intro h
          exact Or.inl (by rw [Option.some.inj h])
      · obtain ⟨name, hname⟩ : ∃ name, refName path = .ok name := by
          cases hname : refName path with
          | ok name => exact ⟨name, rfl⟩
          | error e' => exact absurd (namesNothing_of_refName hname) hnothing
        simp [hname, hnothing, ih]

/-! ### The walk -/

mutual
/-- The paths of the references met on a walk through a schema, in order: under its properties, its
items and the first part of its `allOf`, at any depth. -/
def Schema.walk : Schema → List String
  | .ref path => [path]
  | .inline shape => shape.walk

/-- The paths of the references met on a walk through the keywords of a schema. -/
def Shape.walk : Shape → List String
  | ⟨_, _, _, properties, _, items, allOf, _, _, _⟩ =>
    walkProperties properties ++
      (match items with
      | some item => item.walk
      | none => []) ++
      match allOf with
      | first :: _ => first.walk
      | [] => []

/-- The paths of the references met on a walk through properties. -/
def walkProperties : List (String × Schema) → List String
  | [] => []
  | (_, s) :: rest => s.walk ++ walkProperties rest
end

/-- The paths of the references met on a walk through all entries, in the order of declaration. -/
def Table.walk (schemas : Table Schema) : List String := schemas.entries.flatMap fun e => e.2.walk

theorem walkProperties_eq : ∀ properties : List (String × Schema),
    walkProperties properties = properties.flatMap fun p => p.2.walk
  | [] => rfl
  | (_, s) :: rest => by rw [walkProperties, walkProperties_eq rest, List.flatMap_cons]

theorem Shape.walk_eq (shape : Shape) : shape.walk =
    (shape.properties.flatMap fun p => p.2.walk) ++ shape.items.toList.flatMap Schema.walk ++
      shape.allOf.head?.toList.flatMap Schema.walk := by
  obtain ⟨type, description, default, properties, required, items, allOf, oneOf, anyOf, enum⟩ := shape
  cases items <;> cases allOf <;> simp [Shape.walk.eq_def, walkProperties_eq]

theorem propertyReferences_eq_mapM : ∀ {properties : List (String × Schema)},
    (∀ p ∈ properties, p.2.references = p.2.walk.mapM refName) →
    propertyReferences properties = (properties.flatMap fun p => p.2.walk).mapM refName
  | [], _ => rfl
  | (key, s) :: rest, h => by
      rw [propertyReferences, h _ List.mem_cons_self,
        propertyReferences_eq_mapM fun p hp => h p (List.mem_cons_of_mem _ hp), List.flatMap_cons,
        List.mapM_append]

theorem optionReferences_eq_mapM {o : Option Schema}
    (h : ∀ s ∈ o, s.references = s.walk.mapM refName) :
    optionReferences o = (o.toList.flatMap Schema.walk).mapM refName := by
  cases o with
  | none => rfl
  | some s => simpa [optionReferences] using h s rfl

/-- The names that a schema refers to are those of the references met on a walk through it. -/
theorem Schema.references_eq_mapM (s : Schema) : s.references = s.walk.mapM refName := by
  induction s using Schema.nested with
  | ref path =>
      rw [Schema.references, Schema.walk, List.mapM_cons]
      rfl
  | inline shape hproperties hitems hallOf =>
      have hfirst : ∀ s ∈ shape.allOf.head?, s.references = s.walk.mapM refName :=
        fun s hs => hallOf s (List.mem_of_mem_head? hs)
      rw [Schema.references, references_eq, Schema.walk, Shape.walk_eq,
        propertyReferences_eq_mapM hproperties, optionReferences_eq_mapM hitems,
        optionReferences_eq_mapM hfirst]
      simp only [List.mapM_append, bind_assoc, pure_bind]
      rfl

/-- The first reference on the walk that names nothing is that of the first entry that has one. -/
theorem ofSchemas_eq_error_iff {schemas : Table Schema} {e : InvalidRef} :
    Graph.ofSchemas schemas = .error e ↔ schemas.walk.mapM refName = .error e := by
  unfold Graph.ofSchemas Table.walk
  rw [bind_pure_eq_error]
  induction schemas.entries with
  | nil => simp [pure, Except.pure]
  | cons d rest ih =>
      rw [mapM_cons_eq_error_iff, List.flatMap_cons, mapM_append_eq_error_iff, bind_pure_eq_error,
        bind_pure_eq_ok, ih, Schema.references_eq_mapM]

/-! ### What is not walked through -/

mutual
/-- The schema without what the walk leaves out: `oneOf`, `anyOf` and all of `allOf` but its first
part, at any depth. -/
def Schema.pruned : Schema → Schema
  | .ref path => .ref path
  | .inline shape => .inline shape.pruned

/-- The keywords of a schema without what the walk leaves out. -/
def Shape.pruned : Shape → Shape
  | ⟨type, description, default, properties, required, items, allOf, _, _, enum⟩ =>
    ⟨type, description, default, prunedProperties properties, required,
      match items with
      | some item => some item.pruned
      | none => none,
      match allOf with
      | first :: _ => [first.pruned]
      | [] => [], [], [], enum⟩

/-- Properties without what the walk leaves out. -/
def prunedProperties : List (String × Schema) → List (String × Schema)
  | [] => []
  | (key, s) :: rest => (key, s.pruned) :: prunedProperties rest
end

theorem prunedProperties_eq : ∀ properties : List (String × Schema),
    prunedProperties properties = properties.map fun p => (p.1, p.2.pruned)
  | [] => rfl
  | (key, s) :: rest => by rw [prunedProperties, prunedProperties_eq rest, List.map_cons]

theorem Shape.pruned_eq (shape : Shape) : shape.pruned = {
    shape with
    properties := shape.properties.map fun p => (p.1, p.2.pruned)
    items := shape.items.map Schema.pruned
    allOf := (shape.allOf.head?.map Schema.pruned).toList
    oneOf := []
    anyOf := [] } := by
  obtain ⟨type, description, default, properties, required, items, allOf, oneOf, anyOf, enum⟩ := shape
  cases items <;> cases allOf <;> simp [pruned.eq_def, prunedProperties_eq]

theorem Schema.walk_pruned (s : Schema) : s.pruned.walk = s.walk := by
  induction s using Schema.nested with
  | ref path => rfl
  | inline shape hproperties hitems hallOf =>
      have hfirst : ∀ s ∈ shape.allOf.head?, s.pruned.walk = s.walk :=
        fun s hs => hallOf s (List.mem_of_mem_head? hs)
      rw [Schema.pruned, Schema.walk, Schema.walk, Shape.walk_eq, Shape.walk_eq, Shape.pruned_eq]
      dsimp only
      congr 1
      · congr 1
        · rw [List.flatMap_map]
          exact List.flatMap_congr hproperties
        · cases hi : shape.items with
          | none => rfl
          | some item => simpa using hitems item hi
      · cases hf : shape.allOf.head? with
        | none => rfl
        | some first => simpa using hfirst first hf

theorem Table.walk_pruned (schemas : Table Schema) :
    (schemas.map Schema.pruned).walk = schemas.walk := by
  unfold walk map
  rw [List.flatMap_map]
  exact List.flatMap_congr fun e _ => e.2.walk_pruned

/-! ### Passes -/

section passes
variable {schemas : Table Schema} {g : Graph} (hg : Graph.ofSchemas schemas = .ok g)
include hg

/-- Whatever the table holds so far, the entry of a declared name is made. -/
theorem exists_entry_of_get? (table : Table ResolvedSchema) {name : String} {s : Schema}
    (hs : schemas.get? name = some s) :
    ∃ entry deferred, Building.entry ⟨schemas, g, table⟩ name s = .ok (entry, deferred) := by
  obtain ⟨entry, deferred, hentry, _⟩ := Building.entry_spec (b := ⟨schemas, g, table⟩) hg hs
  exact ⟨entry, deferred, hentry⟩

/-- Whatever came before it, a retry pass ends. -/
theorem exists_retryPass (before : Progress) :
    ∃ after changed, retryPass schemas g before = .ok (after, changed) := by
  obtain ⟨⟨after, changed⟩, hr, _⟩ : ∃ r, retryPass schemas g before = .ok r ∧ True := by
    unfold retryPass
    refine foldlM_induction (fun _ _ => True) trivial ?_
    rintro pre ⟨name, s⟩ post ⟨p, changed⟩ hl _
    have hmem : (name, s) ∈ schemas.entries := List.mem_of_mem_filter (by rw [hl]; simp)
    obtain ⟨entry, deferred, hentry⟩ := exists_entry_of_get? hg p.table (Table.get?_of_mem hmem)
    by_cases hsame : p.table.get? name = some entry
    · exact ⟨_, bind_eq_ok.mpr ⟨_, hentry, if_pos hsame⟩, trivial⟩
    · exact ⟨_, bind_eq_ok.mpr ⟨_, hentry, if_neg hsame⟩, trivial⟩
  exact ⟨after, changed, hr⟩

end passes

/-- Resolution fails exactly if a reference met on the walk through all entries names nothing, with the
first such reference.  What stands under `oneOf`, `anyOf` and later parts of `allOf` makes no
difference to that.  Once all references are listed, every entry and every pass is made, whatever the
table holds. -/
theorem resolveSchemas_eq_error_iff (schemas : Table Schema) :
    ((∃ e, resolveSchemas schemas = .error e) ↔ ∃ path ∈ schemas.walk, NamesNothing path) ∧
    (∀ e, resolveSchemas schemas = .error e ↔
      schemas.walk.find? (fun path => NamesNothing path) = some e.path) ∧
    (∀ e, resolveSchemas (schemas.map Schema.pruned) = .error e ↔
      resolveSchemas schemas = .error e) ∧
    ∀ g, Graph.ofSchemas schemas = .ok g →
      (∀ table name s, schemas.get? name = some s →
        ∃ entry deferred, Building.entry ⟨schemas, g, table⟩ name s = .ok (entry, deferred)) ∧
      (∃ first, firstPass schemas g = .ok first) ∧
      ∀ before, ∃ after changed, retryPass schemas g before = .ok (after, changed) := by
  have hfirst : ∀ (schemas : Table Schema) e, resolveSchemas schemas = .error e ↔
      schemas.walk.find? (fun path => NamesNothing path) = some e.path := by
    intro schemas e
    rw [resolveSchemas_eq_error_iff_ofSchemas, ofSchemas_eq_error_iff, mapM_refName_eq_error_iff]
  refine ⟨?_, hfirst schemas, ?_, ?_⟩
  · have hsome : (schemas.walk.find? fun path => NamesNothing path).isSome ↔
        ∃ path ∈ schemas.walk, NamesNothing path := by
      simp
    rw [← hsome, Option.isSome_iff_exists]
    constructor
    · rintro ⟨e, he⟩
      exact ⟨e.path, (hfirst schemas e).mp he⟩
    · rintro ⟨path, hpath⟩
      exact ⟨⟨path⟩, (hfirst schemas ⟨path⟩).mpr hpath⟩
  · intro e
    rw [hfirst, hfirst, Table.walk_pruned]
  · intro g hg
    obtain ⟨first, hpass, _⟩ := firstPass_stage hg
    exact ⟨fun table name s hs => exists_entry_of_get? hg table hs, ⟨first, hpass⟩,
      exists_retryPass hg⟩

/-- Two references that name nothing and are met on the walk, under properties and items that a text
is not made of, and three others before them that are not met. -/
def misdirected : Table Schema := Table.ofList [
  ("Shape", .inline {
    oneOf := [.ref "#/one/"], anyOf := [.ref "#/any/"],
    allOf := [.ref "#/schemas/Base", .ref "#/later/"] }),
  ("Base", .inline {
    type := some (.single .string), items := some (.ref "#/items/"),
    properties := [("shape", .ref "#/schemas/Shape"), ("old", .ref "#/properties/")] })]

/-- The first reference that is met decides, and without it the entries are made. -/
theorem misdirected_error : resolveSchemas misdirected = .error ⟨"#/properties/"⟩ ∧
    Graph.ofSchemas family = .ok familyGraph ∧
    ∃ entry deferred, Building.entry ⟨family, familyGraph, .empty⟩ "Parent"
      (.inline { properties := [("child", .ref "#/schemas/Child")] }) = .ok (entry, deferred) := by
  refine ⟨((resolveSchemas_eq_error_iff misdirected).2.1 ⟨"#/properties/"⟩).mpr ?_, rfl, ?_⟩
  · decide +kernel
  · exact ((resolveSchemas_eq_error_iff family).2.2.2 familyGraph rfl).1 .empty "Parent" _ rfl

end ApiTypes
