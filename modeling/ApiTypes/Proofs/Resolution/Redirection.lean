import ApiTypes.Proofs.Resolution.Forms
import ApiTypes.Proofs.Tables
import ApiTypes.Resolution.Schemas

/-! # Redirected references

Resolution sees nothing of a reference but its name.  So references may be written with other paths
to the same names, and everything resolves to the same (`resolveSchemas_redirect`).  The paths to
what version 3 keeps elsewhere are such paths (`keepsNames_movedRef`).

Main definitions: `KeepsNames`, `Schema.redirect`, `movedRef`. -/

namespace ApiTypes

/-- Every reference has the same name, or the same error, with the other path. -/
def KeepsNames (f : String → String) : Prop := ∀ path, refName (f path) = refName path

mutual
/-- The schema with other paths in its references. -/
def Schema.redirect (f : String → String) : Schema → Schema
  | .ref path => .ref (f path)
  | .inline shape => .inline (shape.redirect f)

/-- The keywords with other paths in their references. -/
def Shape.redirect (f : String → String) : Shape → Shape
  | ⟨type, description, default, properties, required, items, allOf, oneOf, anyOf, enum⟩ =>
    ⟨type, description, default, redirectProperties f properties, required,
      match items with
      | some item => some (item.redirect f)
      | none => none,
      redirectAll f allOf, redirectAll f oneOf, redirectAll f anyOf, enum⟩

/-- Properties with other paths in their references. -/
def redirectProperties (f : String → String) : List (String × Schema) → List (String × Schema)
  | [] => []
  | (key, s) :: rest => (key, s.redirect f) :: redirectProperties f rest

/-- Schemas with other paths in their references. -/
def redirectAll (f : String → String) : List Schema → List Schema
  | [] => []
  | s :: rest => s.redirect f :: redirectAll f rest
end

variable {f : String → String}

theorem redirectProperties_eq (f : String → String) : ∀ properties : List (String × Schema),
    redirectProperties f properties = properties.map fun p => (p.1, p.2.redirect f)
  | [] => rfl
  | (key, s) :: rest => by
      rw [redirectProperties, redirectProperties_eq f rest, List.map_cons]

theorem redirectAll_eq (f : String → String) : ∀ schemas : List Schema,
    redirectAll f schemas = schemas.map (·.redirect f)
  | [] => rfl
  | s :: rest => by rw [redirectAll, redirectAll_eq f rest, List.map_cons]

theorem Shape.redirect_eq (f : String → String) (shape : Shape) : shape.redirect f = {
    shape with
    properties := shape.properties.map fun p => (p.1, p.2.redirect f)
    items := shape.items.map (·.redirect f)
    allOf := shape.allOf.map (·.redirect f)
    oneOf := shape.oneOf.map (·.redirect f)
    anyOf := shape.anyOf.map (·.redirect f) } := by
  obtain ⟨type, description, default, properties, required, items, allOf, oneOf, anyOf, enum⟩ := shape
  cases items <;> simp [redirect.eq_def, redirectProperties_eq, redirectAll_eq]

theorem Shape.form_redirect (shape : Shape) : (shape.redirect f).form = shape.form := by
  rw [Shape.redirect_eq]
  unfold form objectForm primary
  simp only [List.isEmpty_map, Option.isSome_map]

theorem Schema.default?_redirect (s : Schema) : (s.redirect f).default? = s.default? := by
  cases s with
  | ref path => rfl
  | inline shape => simp only [Schema.redirect, Schema.default?, Shape.redirect_eq]

/-! ### Schemas -/

theorem propertyReferences_redirect : ∀ {properties : List (String × Schema)},
    (∀ p ∈ properties, (p.2.redirect f).references = p.2.references) →
    propertyReferences (properties.map fun p => (p.1, p.2.redirect f)) =
      propertyReferences properties
  | [], _ => rfl
  | (key, s) :: rest, h => by
      rw [List.map_cons, propertyReferences, propertyReferences, h _ List.mem_cons_self,
        propertyReferences_redirect fun p hp => h p (List.mem_cons_of_mem _ hp)]

section schema
variable (hf : KeepsNames f)
include hf

theorem Schema.references_redirect (s : Schema) : (s.redirect f).references = s.references := by
  induction s using Schema.nested with
  | ref path => rw [Schema.redirect, Schema.references, Schema.references, hf path]
  | inline shape hproperties hitems hallOf =>
      have hitem : optionReferences (shape.items.map (·.redirect f)) =
          optionReferences shape.items := by
        cases hi : shape.items with
        | none => rfl
        | some item => exact hitems item hi
      have hfirst : optionReferences (shape.allOf.map (·.redirect f)).head? =
          optionReferences shape.allOf.head? := by
        cases ha : shape.allOf with
        | nil => rfl
        | cons first rest => exact hallOf first (by simp [ha])
      rw [Schema.redirect, Schema.references, Schema.references, references_eq, references_eq,
        Shape.redirect_eq]
      dsimp only
      rw [propertyReferences_redirect hproperties, hitem, hfirst]

theorem describe_redirect (l : Lookup) (s : Schema) : describe l (s.redirect f) = describe l s := by
  cases s with
  | ref path => simp only [Schema.redirect, describe, hf path]
  | inline shape => simp only [Schema.redirect, describe, Shape.redirect_eq]

theorem expandFields_redirect (l : Lookup) (required : List String) :
    ∀ {properties : List (String × Schema)},
      (∀ p ∈ properties, expand l (p.2.redirect f) = expand l p.2) →
      expandFields l required (properties.map fun p => (p.1, p.2.redirect f)) =
        expandFields l required properties
  | [], _ => rfl
  | (key, s) :: rest, h => by
      rw [List.map_cons, expandFields, expandFields, h _ List.mem_cons_self,
        expandFields_redirect l required fun p hp => h p (List.mem_cons_of_mem _ hp),
        describe_redirect hf, Schema.default?_redirect]

theorem expand_redirect (l : Lookup) (s : Schema) : expand l (s.redirect f) = expand l s := by
  induction s using Schema.nested with
  | ref path => rw [Schema.redirect, expand, expand, hf path]
  | inline shape hproperties hitems hallOf =>
      rw [Schema.redirect, expand, expand, expandShape_eq, expandShape_eq, Shape.form_redirect,
        Shape.redirect_eq]
      cases shape.form with
      | object => simp only [expandFields_redirect hf l shape.required hproperties]
      | extension =>
          cases ha : shape.allOf with
          | nil => rfl
          | cons first rest => simp only [List.map_cons, hallOf first (by simp [ha])]
      | array =>
          cases hi : shape.items with
          | none => rfl
          | some item => simp only [Option.map_some, hitems item hi]
      | firstPart =>
          cases ha : shape.allOf with
          | nil => rfl
          | cons first rest => simp only [List.map_cons, hallOf first (by simp [ha])]
      | enumeration base => rfl
      | primitive p => rfl
      | record => rfl
      | any => rfl

end schema

/-! ### Tables -/

/-- The named schemas with other paths in their references. -/
def Table.redirect (f : String → String) (schemas : Table Schema) : Table Schema :=
  schemas.map (·.redirect f)

section table
variable {schemas : Table Schema} {g : Graph} {table : Table ResolvedSchema}

theorem Table.entries_redirect : (schemas.redirect f).entries =
    schemas.entries.map fun e => (e.1, e.2.redirect f) := rfl

theorem Table.get?_redirect (name : String) :
    (schemas.redirect f).get? name = (schemas.get? name).map (·.redirect f) :=
  Table.get?_map _ _ _

namespace Building

theorem description_redirect : description ⟨schemas.redirect f, g, table⟩ =
    description ⟨schemas, g, table⟩ := by
  funext name
  unfold description
  dsimp only
  rw [Table.get?_redirect]
  cases table.get? name with
  | some target => rfl
  | none =>
      cases schemas.get? name with
      | none => rfl
      | some s => cases s <;> simp [Schema.redirect, Shape.redirect_eq]

theorem lookUp_redirect : lookUp ⟨schemas.redirect f, g, table⟩ = lookUp ⟨schemas, g, table⟩ := by
  have hcontains : (schemas.redirect f).contains = schemas.contains :=
    funext (Table.contains_map _ schemas)
  funext name
  unfold lookUp
  dsimp only
  rw [hcontains]

end Building

variable (hf : KeepsNames f)
include hf

theorem Building.resolveAt_redirect (room : Nat) : ∀ path,
    resolveAt ⟨schemas.redirect f, g, table⟩ room path =
      resolveAt ⟨schemas, g, table⟩ room path := by
  induction room with
  | zero =>
      intro path
      funext name
      unfold resolveAt
      rw [Table.get?_redirect, lookUp_redirect]
      cases schemas.get? name <;> rfl
  | succ room ih =>
      intro path
      funext name
      simp only [resolveAt, Table.get?_redirect, lookUp_redirect, ih, description_redirect]
      cases schemas.get? name with
      | none => rfl
      | some s => simp only [Option.map_some, expand_redirect hf]

theorem Building.entry_redirect (name : String) (s : Schema) :
    entry ⟨schemas.redirect f, g, table⟩ name (s.redirect f) =
      entry ⟨schemas, g, table⟩ name s := by
  unfold entry lookup
  rw [resolveAt_redirect hf, description_redirect, expand_redirect hf, describe_redirect hf]

theorem ofSchemas_redirect : Graph.ofSchemas (schemas.redirect f) = Graph.ofSchemas schemas := by
  unfold Graph.ofSchemas
  simp only [Table.entries_redirect, List.mapM_map, Function.comp_def, Schema.references_redirect hf]

theorem firstPass_redirect : firstPass (schemas.redirect f) g = firstPass schemas g := by
  unfold firstPass
  rw [Table.entries_redirect, List.foldlM_map]
  simp only [Building.entry_redirect hf]

theorem retryPass_redirect (before : Progress) :
    retryPass (schemas.redirect f) g before = retryPass schemas g before := by
  unfold retryPass
  rw [Table.entries_redirect, List.filter_map, List.foldlM_map]
  simp only [Building.entry_redirect hf, Function.comp_def]

theorem retry_redirect (passes : Nat) (p : Progress) :
    retry (schemas.redirect f) g passes p = retry schemas g passes p := by
  induction passes generalizing p with
  | zero => rfl
  | succ passes ih => simp only [retry, retryPass_redirect hf, ih]

/-- Schemas resolve to the same, with the same errors, when references are written with other paths
to the same names. -/
theorem resolveSchemas_redirect : resolveSchemas (schemas.redirect f) = resolveSchemas schemas := by
  unfold resolveSchemas
  simp only [ofSchemas_redirect hf, firstPass_redirect hf, retry_redirect hf]

end table

/-! ### References to what has moved -/

/-- Where version 2 keeps what is shared, and where version 3 does. -/
def sharedPlaces : List (String × String) :=
  [("#/definitions/", "#/components/schemas/"), ("#/parameters/", "#/components/parameters/"),
    ("#/responses/", "#/components/responses/")]

/-- The path of a reference in version 3; one without a name stays as it is. -/
def movedRef (path : String) : String :=
  match refName path, sharedPlaces.find? fun place => place.1.toList.isPrefixOf path.toList with
  | .ok _, some place => place.2 ++ String.ofList (path.toList.drop place.1.toList.length)
  | _, _ => path

/-- What comes before a mark does not matter. -/
theorem Text.lastSegment_append (mark : Char) (s t : List Char) :
    lastSegment mark (s ++ mark :: t) = lastSegment mark t := by
  unfold lastSegment
  rw [List.reverse_append, List.reverse_cons, List.append_assoc, List.takeWhile_append]
  split
  · next h =>
    rw [(List.takeWhile_prefix _).eq_of_length h]
    simp
  · rfl

theorem refName_of_lastSegment {path other name : String} (h : refName path = .ok name)
    (hlast : Text.lastSegment '/' other.toList = Text.lastSegment '/' path.toList) :
    refName other = .ok name := by
  unfold refName at h ⊢
  rw [hlast]
  dsimp only at h ⊢
  split at h
  · cases h
  · next hname => rwa [if_neg hname]

theorem keepsNames_movedRef : KeepsNames movedRef := by
  have hslash : ∀ place ∈ sharedPlaces, place.1.toList = place.1.toList.dropLast ++ ['/'] ∧
      place.2.toList = place.2.toList.dropLast ++ ['/'] := by
    decide +kernel
  intro path
  unfold movedRef
  split
  · next name place hname hplace =>
    obtain ⟨hold, hnew⟩ := hslash place (List.mem_of_find?_eq_some hplace)
    have hstart : place.1.toList.isPrefixOf path.toList = true :=
      List.find?_some (p := fun e : String × String => e.1.toList.isPrefixOf path.toList) hplace
    have hpath : path.toList = place.1.toList ++ path.toList.drop place.1.toList.length :=
      (List.prefix_iff_eq_append.mp (List.isPrefixOf_iff_prefix.mp hstart)).symm
    rw [hname]
    apply refName_of_lastSegment hname
    generalize path.toList.drop place.1.toList.length = rest at hpath ⊢
    rw [String.toList_append, String.toList_ofList, hpath, hold, hnew, List.append_assoc,
      List.append_assoc]
    exact (Text.lastSegment_append '/' _ rest).trans (Text.lastSegment_append '/' _ rest).symm
  · rfl

end ApiTypes
