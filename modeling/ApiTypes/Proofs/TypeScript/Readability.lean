import ApiTypes.Proofs.TypeScript.Syntax

/-! # What types show of descriptors

A type does not show everything of a descriptor: what is shown is written down as a descriptor again
(`Descriptor.shown`), and a type is as good as that (`descriptor_ofDescriptor`).  So two descriptors
with legible keys and literals have the same text exactly if the same is shown of them
(`typeText_eq_iff`).

Main definitions: `Descriptor.Legible`, `Descriptor.shown`. -/

namespace ApiTypes

/-- The keys of the fields and the members of the enumerations in the descriptor are legible. -/
inductive Descriptor.Legible : Descriptor → Prop
  | primitive (p : Primitive) : Legible (.primitive p)
  | enumeration (base : Primitive) {values : List Literal} (members : ∀ v ∈ values, v.IsScalar) :
      Legible (.enumeration base values)
  | array {item : Descriptor} (legible : Legible item) : Legible (.array item)
  | object {fields : List Field} (keys : ∀ f ∈ fields, IsKey f.key)
      (types : ∀ f ∈ fields, Legible f.type) : Legible (.object fields)
  | record : Legible .record
  | any : Legible .any
  | pending (name : String) : Legible (.pending name)

/-! ### What is shown -/

mutual
/-- What a type shows of a descriptor.  What is not resolved can be anything, an object without
fields is a record, and an enumeration is its members or, without any, its base. -/
def Descriptor.shown : Descriptor → Descriptor
  | .primitive p => .primitive p
  | .enumeration base [] => .primitive base
  | .enumeration _ (v :: vs) => .enumeration .string (v :: vs)
  | .array item => .array item.shown
  | .object [] => .record
  | .object (f :: fs) => .object (f.shown :: shownFields fs)
  | .record => .record
  | .any | .pending _ => .any

/-- What a member shows of a field: not its description, its origin or its default. -/
def Field.shown : Field → Field
  | ⟨key, type, _, required, _, _⟩ => ⟨key, type.shown, none, required, none, none⟩

/-- What is shown of fields. -/
def shownFields : List Field → List Field
  | [] => []
  | f :: fs => f.shown :: shownFields fs
end

namespace TypeScript

mutual
/-- What is shown of every descriptor with the type. -/
def TypeExpr.descriptor : TypeExpr → Descriptor
  | .keyword p => .primitive p
  | .union v vs => .enumeration .string (v :: vs)
  | .array item => .array item.descriptor
  | .object m ms => .object (m.field :: fieldsOf ms)
  | .record => .record
  | .any => .any

/-- What is shown of every field with the member. -/
def Member.field : Member → Field
  | ⟨key, isOptional, type⟩ => ⟨key, type.descriptor, none, !isOptional, none, none⟩

/-- The fields of members. -/
def fieldsOf : List Member → List Field
  | [] => []
  | m :: ms => m.field :: fieldsOf ms
end

mutual
/-- A type has all that is shown. -/
theorem descriptor_ofDescriptor : ∀ d : Descriptor, (ofDescriptor false d).descriptor = d.shown
  | .primitive _ | .enumeration _ [] | .enumeration _ (_ :: _) | .object [] | .record | .any
  | .pending _ => rfl
  | .array item => by
      rw [ofDescriptor, TypeExpr.descriptor, descriptor_ofDescriptor item, Descriptor.shown]
  | .object (f :: fs) => by
      rw [ofDescriptor, TypeExpr.descriptor, field_ofField f, fieldsOf_ofFields fs,
        Descriptor.shown]

theorem field_ofField : ∀ f : Field, (ofField false f).field = f.shown
  | ⟨key, type, _, required, _, _⟩ => by
      rw [ofField, Member.field, descriptor_ofDescriptor type, Field.shown, Bool.false_or,
        Bool.not_not]

theorem fieldsOf_ofFields : ∀ fs : List Field, fieldsOf (ofFields false fs) = shownFields fs
  | [] => rfl
  | f :: fs => by
      rw [ofFields, fieldsOf, field_ofField f, fieldsOf_ofFields fs, shownFields]
end

section
variable (force : Bool)

mutual
/-- A type has nothing else. -/
theorem ofDescriptor_shown : ∀ d : Descriptor, ofDescriptor force d.shown = ofDescriptor force d
  | .primitive _ | .enumeration _ [] | .enumeration _ (_ :: _) | .object [] | .record | .any
  | .pending _ => rfl
  | .array item => by
      rw [Descriptor.shown, ofDescriptor, ofDescriptor_shown item, ofDescriptor]
  | .object (f :: fs) => by
      rw [Descriptor.shown, ofDescriptor, ofField_shown f, ofFields_shownFields fs, ofDescriptor]

theorem ofField_shown : ∀ f : Field, ofField force f.shown = ofField force f
  | ⟨key, type, _, required, _, _⟩ => by
      rw [Field.shown, ofField, ofDescriptor_shown type, ofField]

theorem ofFields_shownFields : ∀ fs : List Field,
    ofFields force (shownFields fs) = ofFields force fs
  | [] => rfl
  | f :: fs => by
      rw [shownFields, ofFields, ofField_shown f, ofFields_shownFields fs, ofFields]
end

end

/-! ### Legible descriptors -/

theorem mem_ofFields {force : Bool} {fs : List Field} {m : Member} (h : m ∈ ofFields force fs) :
    ∃ f ∈ fs, m.key = f.key ∧ m.type = ofDescriptor force f.type := by
  induction fs with
  | nil => cases h
  | cons f fs ih =>
      cases h with
      | head =>
          obtain ⟨key, type, _, _, _, _⟩ := f
          exact ⟨_, List.mem_cons_self, rfl, rfl⟩
      | tail _ hmem =>
          obtain ⟨g, hg, heq⟩ := ih hmem
          exact ⟨g, List.mem_cons_of_mem f hg, heq⟩

theorem legible_ofDescriptor {d : Descriptor} (h : d.Legible) (force : Bool) :
    (ofDescriptor force d).Legible := by
  induction h with
  | primitive p => exact .keyword p
  | @enumeration base values hmembers =>
      cases values with
      | nil => exact .keyword base
      | cons v vs => exact .union hmembers
  | array _ ih => exact .array ih
  | @object fields hkeys _ ih =>
      cases fields with
      | nil => exact .record
      | cons f fs =>
          have hfields : ∀ m ∈ ofFields force (f :: fs),
              IsKey m.key ∧ m.type.Legible := by
            intro m hm
            obtain ⟨g, hg, hkey, htype⟩ := mem_ofFields hm
            exact ⟨hkey ▸ hkeys g hg, htype ▸ ih g hg⟩
          exact .object (fun m hm => (hfields m hm).1) (fun m hm => (hfields m hm).2)
  | record => exact .record
  | any | pending _ => exact .any

end TypeScript

/-- The text of a type is faithful: two descriptors with legible keys and literals have the same
text exactly if they differ in nothing but descriptions, origins and defaults, in what is read alike
(what is not resolved and what can be anything, an object without fields and a record, an
enumeration without members and its base), and in the bases of enumerations with members. -/
theorem typeText_eq_iff {d e : Descriptor} (hd : d.Legible) (he : e.Legible) :
    d.typeText false = e.typeText false ↔ d.shown = e.shown := by
  unfold Descriptor.typeText
  constructor
  · intro h
    have htype := (TypeScript.legible_ofDescriptor hd false).chars_inj
      (TypeScript.legible_ofDescriptor he false) (String.ofList_injective h)
    rw [← TypeScript.descriptor_ofDescriptor d, htype, TypeScript.descriptor_ofDescriptor e]
  · intro h
    rw [← TypeScript.ofDescriptor_shown false d, h, TypeScript.ofDescriptor_shown false e]

/-- A pet with its parts. -/
def petWith (about : Option String) (kind home tag : Descriptor) : Descriptor := .object [
  { key := "pet.kind", type := kind, description := about, required := true },
  { key := "$home", type := home },
  { key := "tags", type := .array tag }]

theorem petWith_legible {kind home tag : Descriptor} (hkind : kind.Legible)
    (hhome : home.Legible) (htag : tag.Legible) (about : Option String) :
    (petWith about kind home tag).Legible := by
  refine .object ?_ ?_
  · simp only [List.forall_mem_cons]
    exact ⟨by decide +kernel, by decide +kernel, by decide +kernel, nofun⟩
  · simp only [List.forall_mem_cons]
    exact ⟨hkind, hhome, .array htag, nofun⟩

/-- Kinds where a backslash stands in front of a quote, and a separator between quotes. -/
def oddKinds : List Literal := [.text "cat\\", .text " | ", .integer (-1)]

/-- A pet has the text of another one where its kinds are the same, and another text where they are
not, though their literals begin with the same characters. -/
theorem petWith_text :
    (petWith (some "found") (.enumeration .number oddKinds) (.pending "House")
        (.object [])).typeText false =
      (petWith none (.enumeration .string oddKinds) .any .record).typeText false ∧
    (petWith none (.enumeration .string oddKinds) .any .record).typeText false =
      "\x7b 'pet.kind': 'cat\\' | ' | ' | -1; $home?: any; tags?: Array<Record<string, any>> \x7d" ∧
    (petWith none (.enumeration .string oddKinds) .any .record).typeText false ≠
      (petWith none (.enumeration .string [.text "cat' | ", .text " | -1"]) .any
        .record).typeText false := by
  have hkinds : ∀ v ∈ oddKinds, v.IsScalar := by
    unfold oddKinds
    simp only [List.forall_mem_cons]
    exact ⟨.text _, .text _, .integer _, nofun⟩
  have hothers : ∀ v ∈ [Literal.text "cat' | ", .text " | -1"], v.IsScalar := by
    simp only [List.forall_mem_cons]
    exact ⟨.text _, .text _, nofun⟩
  have hempty : (Descriptor.object []).Legible := .object nofun nofun
  have hfound := petWith_legible (.enumeration .number hkinds) (.pending "House") hempty
    (some "found")
  have hplain := petWith_legible (.enumeration .string hkinds) .any .record none
  have hother := petWith_legible (.enumeration .string hothers) .any .record none
  refine ⟨(typeText_eq_iff hfound hplain).mpr (by decide +kernel), by decide +kernel, ?_⟩
  exact (typeText_eq_iff hplain hother).not.mpr (by decide +kernel)

end ApiTypes
