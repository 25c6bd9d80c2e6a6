import ApiTypes.Proofs.Binding.TypeNames

/-! # Optional members

A policy that requires the members of a side writes what is written without it where the fields of
that side are all required, at every depth.  Apart from the policy the text of types is an outline:
it is settled but for a mark behind the key of each field, which says whether the member may be left
out (`typesText_eq_fill`).  A mark is empty where the policy requires the side or the field is
required, and else a question mark.

Main definitions: `Descriptor.requireAll`, `BoundOperation.requireAll`, `Descriptor.deepFields`,
`outline`, `textOutline`, `fill`. -/

namespace ApiTypes

/-! ### Fields at every depth -/

mutual
/-- The fields of the objects inside, each before those of its own type. -/
def Descriptor.deepFields : Descriptor → List Field
  | .array item => item.deepFields
  | .object fields => deepFieldsOf fields
  | .primitive _ | .enumeration .. | .record | .any | .pending _ => []

/-- A field and those of its type. -/
def Field.deepFields : Field → List Field
  | ⟨key, type, description, required, origin, default⟩ =>
    ⟨key, type, description, required, origin, default⟩ :: type.deepFields

/-- Fields and those of their types. -/
def deepFieldsOf : List Field → List Field
  | [] => []
  | f :: fs => f.deepFields ++ deepFieldsOf fs
end

mutual
/-- The descriptor with every field inside required. -/
def Descriptor.requireAll : Descriptor → Descriptor
  | .array item => .array item.requireAll
  | .object fields => .object (requireFields fields)
  | .primitive p => .primitive p
  | .enumeration base values => .enumeration base values
  | .record => .record
  | .any => .any
  | .pending name => .pending name

/-- The field, required, with every field inside required. -/
def Field.requireAll : Field → Field
  | ⟨key, type, description, _, origin, default⟩ =>
    ⟨key, type.requireAll, description, true, origin, default⟩

/-- The fields, required, with every field inside required. -/
def requireFields : List Field → List Field
  | [] => []
  | f :: fs => f.requireAll :: requireFields fs
end

mutual
theorem Descriptor.deepFields_requireAll : ∀ d : Descriptor,
    d.requireAll.deepFields = d.deepFields.map Field.requireAll
  | .array item => by
      rw [Descriptor.requireAll, Descriptor.deepFields, Descriptor.deepFields,
        item.deepFields_requireAll]
  | .object fields => by
      rw [Descriptor.requireAll, Descriptor.deepFields, Descriptor.deepFields,
        deepFieldsOf_requireFields fields]
  | .primitive _ | .enumeration .. | .record | .any | .pending _ => rfl

theorem Field.deepFields_requireAll : ∀ f : Field,
    f.requireAll.deepFields = f.deepFields.map Field.requireAll
  | ⟨key, type, description, required, origin, default⟩ => by
      rw [Field.requireAll, Field.deepFields, Field.deepFields, List.map_cons, Field.requireAll,
        type.deepFields_requireAll]

theorem deepFieldsOf_requireFields : ∀ fields : List Field,
    deepFieldsOf (requireFields fields) = (deepFieldsOf fields).map Field.requireAll
  | [] => rfl
  | f :: fs => by
      rw [requireFields, deepFieldsOf, deepFieldsOf, List.map_append, f.deepFields_requireAll,
        deepFieldsOf_requireFields fs]
end

theorem Field.required_requireAll (f : Field) : f.requireAll.required = true := by
  cases f
  rfl

theorem Field.description_requireAll (f : Field) : f.requireAll.description = f.description := by
  cases f
  rfl

theorem requireFields_append (fields others : List Field) :
    requireFields (fields ++ others) = requireFields fields ++ requireFields others := by
  induction fields with
  | nil => rfl
  | cons f fs ih => rw [List.cons_append, requireFields, requireFields, ih, List.cons_append]

/-! ### The sides of an operation -/

/-- Are the members of the side all required, whatever the schema says? -/
def Policy.requires (policy : Policy) : Role → Bool
  | .request => policy.requireRequest
  | .response => policy.requireResponse

namespace BoundOperation

/-- The fields of a side. -/
def fieldsOf (o : BoundOperation) : Role → List Field
  | .request => o.requestFields
  | .response => o.responseFields

/-- The operation with every field of a side required, at every depth. -/
def requireAll (o : BoundOperation) : Role → BoundOperation
  | .request =>
    { o with
      parameters := o.parameters.map requireFields
      requestBody := o.requestBody.map requireFields }
  | .response => { o with responses := o.responses.map requireFields }

theorem fieldsOf_requireAll (o : BoundOperation) (side : Role) :
    (o.requireAll side).fieldsOf side = requireFields (o.fieldsOf side) := by
  have hgetD : ∀ fields : Option (List Field),
      (fields.map requireFields).getD [] = requireFields (fields.getD []) := by
    intro fields
    cases fields <;> rfl
  cases side with
  | request =>
      change (o.parameters.map requireFields).getD [] ++ (o.requestBody.map requireFields).getD [] =
        requireFields (o.parameters.getD [] ++ o.requestBody.getD [])
      rw [hgetD, hgetD, requireFields_append]
  | response => exact hgetD o.responses

/-- In such an operation every field of the side is required. -/
theorem required_of_mem_requireAll {o : BoundOperation} {side : Role} {f : Field}
    (h : f ∈ deepFieldsOf ((o.requireAll side).fieldsOf side)) : f.required = true := by
  rw [fieldsOf_requireAll, deepFieldsOf_requireFields] at h
  obtain ⟨g, _, rfl⟩ := List.mem_map.mp h
  exact g.required_requireAll

end BoundOperation

/-! ### A policy as required fields -/

namespace TypeScript

mutual
theorem ofDescriptor_true : ∀ d : Descriptor, ofDescriptor true d = ofDescriptor false d.requireAll
  | .primitive _ | .record | .any | .pending _ | .enumeration _ [] | .enumeration _ (_ :: _)
  | .object [] => rfl
  | .array item => by
      rw [Descriptor.requireAll, ofDescriptor, ofDescriptor, ofDescriptor_true item]
  | .object (f :: fs) => by
      rw [Descriptor.requireAll, requireFields, ofDescriptor, ofDescriptor, ofField_true f,
        ofFields_true fs]

theorem ofField_true : ∀ f : Field, ofField true f = ofField false f.requireAll
  | ⟨_, type, _, _, _, _⟩ => by
      rw [Field.requireAll, ofField, ofField, ofDescriptor_true type]
      rfl

theorem ofFields_true : ∀ fields : List Field,
    ofFields true fields = ofFields false (requireFields fields)
  | [] => rfl
  | f :: fs => by rw [requireFields, ofFields, ofFields, ofField_true f, ofFields_true fs]
end

theorem propertiesOf_true (fields : List Field) :
    propertiesOf true fields = propertiesOf false (requireFields fields) := by
  unfold propertiesOf
  induction fields with
  | nil => rfl
  | cons f fs ih =>
      rw [requireFields, List.map_cons, List.map_cons, ih, ofField_true, f.description_requireAll]

/-- The interfaces of an operation, side by side. -/
theorem interfacesOf_eq (business : String) (policy : Policy) (o : BoundOperation) :
    interfacesOf business policy o = [Role.request, .response].flatMap fun side =>
      (o.typeNameOf side).toList.map fun name =>
        interfaceOf business o name (o.fieldsOf side) (policy.requires side) := by
  unfold interfacesOf BoundOperation.typeNameOf
  cases o.requestTypeName <;> cases o.responseTypeName <;> rfl

/-- To require the members of a side is to require its fields; the other side stays as it is. -/
theorem interfacesOf_requireAll (business : String) {policy policy' : Policy} {side : Role}
    (h : policy.requires side = true) (h' : policy'.requires side = false)
    (hother : ∀ other ≠ side, policy.requires other = policy'.requires other) (o : BoundOperation) :
    interfacesOf business policy o = interfacesOf business policy' (o.requireAll side) := by
  rw [interfacesOf_eq, interfacesOf_eq]
  refine List.flatMap_congr fun s _ => ?_
  have hname : (o.requireAll side).typeNameOf s = o.typeNameOf s := by
    cases side <;> cases s <;> rfl
  rw [hname]
  refine List.map_congr_left fun name _ => ?_
  -- An interface reads the policy and the fields of its own side alone.
  by_cases hs : s = side
  · subst hs
    unfold interfaceOf
    rw [h, h', propertiesOf_true, BoundOperation.fieldsOf_requireAll]
    cases s <;> rfl
  · rw [hother s hs]
    cases side <;> cases s <;> first | rfl | exact absurd rfl hs

end TypeScript

theorem typesText_map {business : String} {policy policy' : Policy}
    {change : BoundOperation → BoundOperation}
    (h : ∀ o, TypeScript.interfacesOf business policy o =
      TypeScript.interfacesOf business policy' (change o)) (ops : List BoundOperation) :
    typesText business policy ops = typesText business policy' (ops.map change) := by
  unfold typesText interfacesOf
  rw [List.flatMap_map, List.flatMap_congr fun o _ => h o]

/-! ### Outlines -/

namespace TypeScript

/-- A piece of a text in which it is left open which members may be left out. -/
inductive Piece where
  | char (c : Char)
  /-- The place behind the key of a field. -/
  | mark (side : Role) (field : Field)

/-- The field at a mark. -/
def Piece.field? : Piece → Option (Role × Field)
  | .char _ => none
  | .mark side f => some (side, f)

/-- A text without marks. -/
def plain (s : List Char) : List Piece := s.map .char

/-- The text of a piece: at a mark, whether the member may be left out. -/
def Piece.chars (isOptional : Role → Field → Bool) : Piece → List Char
  | .char c => [c]
  | .mark side f => if isOptional side f then ['?'] else []

/-- The text of pieces. -/
def fill (isOptional : Role → Field → Bool) (pieces : List Piece) : List Char :=
  pieces.flatMap (·.chars isOptional)

mutual
/-- The text of a descriptor's type, with a mark for each field inside. -/
def outline (side : Role) : Descriptor → List Piece
  | .primitive p | .enumeration p [] => plain p.name.toList
  | .enumeration _ (v :: vs) => plain (literalChars v ++ unionChars vs)
  | .array item => plain "Array<".toList ++ outline side item ++ plain ['>']
  | .object (f :: fs) =>
    plain ['{', ' '] ++ fieldOutline side f ++ fieldsOutline side fs ++ plain [' ', '}']
  | .object [] | .record => plain recordChars
  | .any | .pending _ => plain "any".toList

/-- The text of a field: its mark stands behind its key. -/
def fieldOutline (side : Role) : Field → List Piece
  | ⟨key, type, description, required, origin, default⟩ =>
    plain (keyChars key.toList) ++
      .mark side ⟨key, type, description, required, origin, default⟩ ::
      plain [':', ' '] ++ outline side type

/-- The text of the fields of an object after the first. -/
def fieldsOutline (side : Role) : List Field → List Piece
  | [] => []
  | f :: fs => plain [';', ' '] ++ fieldOutline side f ++ fieldsOutline side fs
end

/-- The text of an interface. -/
def interfaceOutline (business : String) (o : BoundOperation) (side : Role) (name : String) :
    List Piece :=
  let empty := interfaceOf business o name [] false
  plain (empty.header ++ line ("export interface ".toList ++ name.toList ++ [' ', '{'])) ++
    (o.fieldsOf side).flatMap (fun f =>
      plain ((Property.mk f.description (ofField false f)).comment ++ [' ', ' ']) ++
        fieldOutline side f ++ plain (line [';'])) ++
    plain (line ['}'] ++ ['\n'])

section filling
variable (isOptional : Role → Field → Bool)

theorem fill_append (pieces others : List Piece) :
    fill isOptional (pieces ++ others) = fill isOptional pieces ++ fill isOptional others :=
  List.flatMap_append

theorem fill_plain (s : List Char) : fill isOptional (plain s) = s := by
  unfold fill plain
  rw [List.flatMap_map]
  exact List.flatMap_singleton' s

theorem fill_mark (side : Role) (f : Field) (pieces : List Piece) :
    fill isOptional (.mark side f :: pieces) =
      (if isOptional side f then ['?'] else []) ++ fill isOptional pieces := rfl

end filling

/-- May a field of the side be left out? -/
def isOptional (policy : Policy) (side : Role) (f : Field) : Bool :=
  !(policy.requires side || f.required)

theorem isOptional_of_lax : isOptional ⟨false, false⟩ = fun _ f => !f.required := by
  funext side f
  cases side <;> rfl

section
variable (policy : Policy) (side : Role)

mutual
theorem chars_ofDescriptor : ∀ d : Descriptor,
    (ofDescriptor (policy.requires side) d).chars = fill (isOptional policy) (outline side d)
  | .primitive _ | .enumeration _ [] | .enumeration _ (_ :: _) | .object [] | .record | .any
  | .pending _ => by
      rw [outline, fill_plain]
      rfl
  | .array item => by
      rw [outline, fill_append, fill_append, fill_plain, fill_plain, ← chars_ofDescriptor item,
        ofDescriptor, TypeExpr.chars_array]
  | .object (f :: fs) => by
      rw [outline, fill_append, fill_append, fill_append, fill_plain, fill_plain,
        ← chars_ofField f, ← chars_ofFields fs, ofDescriptor, TypeExpr.chars_object]
      rfl

theorem chars_ofField : ∀ f : Field,
    (ofField (policy.requires side) f).chars = fill (isOptional policy) (fieldOutline side f)
  | ⟨key, type, _, _, _, _⟩ => by
      rw [fieldOutline, fill_append, fill_append, fill_plain, fill_mark, fill_plain,
        ← chars_ofDescriptor type, ofField, Member.chars, isOptional]
      simp

theorem chars_ofFields : ∀ fields : List Field,
    membersChars (ofFields (policy.requires side) fields) =
      fill (isOptional policy) (fieldsOutline side fields)
  | [] => rfl
  | f :: fs => by
      rw [fieldsOutline, fill_append, fill_append, fill_plain, ← chars_ofField f,
        ← chars_ofFields fs, ofFields, membersChars]
      rfl
end

theorem fill_fields (fields : List Field) :
    (propertiesOf (policy.requires side) fields).flatMap Property.chars =
      fill (isOptional policy) (fields.flatMap fun f =>
        plain ((Property.mk f.description (ofField false f)).comment ++ [' ', ' ']) ++
          fieldOutline side f ++ plain (line [';'])) := by
  unfold propertiesOf
  induction fields with
  | nil => rfl
  | cons f fs ih =>
      rw [List.map_cons, List.flatMap_cons, List.flatMap_cons, fill_append, ← ih, fill_append,
        fill_append, fill_plain, fill_plain, ← chars_ofField policy side f]
      simp [Property.chars, Property.comment, line]

/-- The text of an interface is its outline, filled in. -/
theorem chars_interfaceOf (business : String) (o : BoundOperation) (name : String) :
    (interfaceOf business o name (o.fieldsOf side) (policy.requires side)).chars =
      fill (isOptional policy) (interfaceOutline business o side name) := by
  unfold interfaceOutline
  rw [fill_append, fill_append, fill_plain, fill_plain, ← fill_fields]
  simp [Interface.chars, interfaceOf, Interface.header]

end

/-! ### Marks -/

/-- The fields at the marks of pieces. -/
def markedFields (pieces : List Piece) : List (Role × Field) := pieces.filterMap Piece.field?

theorem markedFields_append (pieces others : List Piece) :
    markedFields (pieces ++ others) = markedFields pieces ++ markedFields others :=
  List.filterMap_append

theorem markedFields_plain (s : List Char) : markedFields (plain s) = [] := by
  unfold markedFields plain
  rw [List.filterMap_map]
  exact List.filterMap_eq_nil_iff.mpr fun _ _ => rfl

theorem markedFields_mark (side : Role) (f : Field) (pieces : List Piece) :
    markedFields (.mark side f :: pieces) = (side, f) :: markedFields pieces := rfl

section
variable (side : Role)

mutual
theorem markedFields_outline : ∀ d : Descriptor,
    markedFields (outline side d) = d.deepFields.map (side, ·)
  | .primitive _ | .enumeration _ [] | .enumeration _ (_ :: _) | .record | .any | .pending _ => by
      rw [outline, markedFields_plain, Descriptor.deepFields, List.map_nil]
  | .object [] => by
      rw [outline, markedFields_plain, Descriptor.deepFields, deepFieldsOf, List.map_nil]
  | .array item => by
      rw [outline, markedFields_append, markedFields_append, markedFields_plain, markedFields_plain,
        markedFields_outline item, Descriptor.deepFields, List.append_nil, List.nil_append]
  | .object (f :: fs) => by
      rw [outline, markedFields_append, markedFields_append, markedFields_append,
        markedFields_plain, markedFields_plain, markedFields_fieldOutline f,
        markedFields_fieldsOutline fs, Descriptor.deepFields, deepFieldsOf, List.map_append,
        List.append_nil, List.nil_append]

theorem markedFields_fieldOutline : ∀ f : Field,
    markedFields (fieldOutline side f) = f.deepFields.map (side, ·)
  | ⟨_, type, _, _, _, _⟩ => by
      rw [fieldOutline, markedFields_append, markedFields_append, markedFields_plain,
        markedFields_mark, markedFields_plain, markedFields_outline type, Field.deepFields,
        List.map_cons]
      rfl

theorem markedFields_fieldsOutline : ∀ fields : List Field,
    markedFields (fieldsOutline side fields) = (deepFieldsOf fields).map (side, ·)
  | [] => rfl
  | f :: fs => by
      rw [fieldsOutline, markedFields_append, markedFields_append, markedFields_plain,
        markedFields_fieldOutline f, markedFields_fieldsOutline fs, deepFieldsOf, List.map_append,
        List.nil_append]
end

/-- An interface has a mark for each field of its side, at every depth. -/
theorem markedFields_interfaceOutline (business : String) (o : BoundOperation) (name : String) :
    markedFields (interfaceOutline business o side name) =
      (deepFieldsOf (o.fieldsOf side)).map (side, ·) := by
  unfold interfaceOutline
  rw [markedFields_append, markedFields_append, markedFields_plain, markedFields_plain,
    List.append_nil, List.nil_append]
  induction o.fieldsOf side with
  | nil => rfl
  | cons f fs ih =>
      rw [List.flatMap_cons, markedFields_append, ih, markedFields_append, markedFields_append,
        markedFields_plain, markedFields_plain, markedFields_fieldOutline, deepFieldsOf,
        List.map_append, List.append_nil, List.nil_append]

end

end TypeScript

open TypeScript (outline fill isOptional markedFields)

/-- The text of the types of operations, with a mark for each of their fields. -/
def textOutline (business : String) (ops : List BoundOperation) : List TypeScript.Piece :=
  ops.flatMap fun o => [Role.request, .response].flatMap fun side =>
    (o.typeNameOf side).toList.flatMap (TypeScript.interfaceOutline business o side)

/-- The fields of the sides that have an interface, at every depth, in order. -/
def writtenFields (ops : List BoundOperation) : List (Role × Field) :=
  ops.flatMap fun o => [Role.request, .response].flatMap fun side =>
    (o.typeNameOf side).toList.flatMap fun _ => (deepFieldsOf (o.fieldsOf side)).map (side, ·)

/-- The text of types is its outline, with a question mark at each mark of a field that the policy
does not require and the schema neither. -/
theorem typesText_eq_fill (business : String) (policy : Policy) (ops : List BoundOperation) :
    (typesText business policy ops).toList =
      fill (isOptional policy) (textOutline business ops) := by
  unfold typesText interfacesOf textOutline fill
  rw [String.toList_ofList, List.flatMap_assoc, List.flatMap_assoc]
  refine List.flatMap_congr fun o _ => ?_
  rw [TypeScript.interfacesOf_eq, List.flatMap_assoc, List.flatMap_assoc]
  refine List.flatMap_congr fun side _ => ?_
  rw [List.flatMap_map, List.flatMap_assoc]
  exact List.flatMap_congr fun name _ => TypeScript.chars_interfaceOf policy side business o name

/-- The marks of the outline stand for the fields at every depth, in order. -/
theorem markedFields_textOutline (business : String) (ops : List BoundOperation) :
    markedFields (textOutline business ops) = writtenFields ops := by
  unfold textOutline writtenFields markedFields
  rw [List.filterMap_flatMap]
  refine List.flatMap_congr fun o _ => ?_
  rw [List.filterMap_flatMap]
  refine List.flatMap_congr fun side _ => ?_
  rw [List.filterMap_flatMap]
  exact List.flatMap_congr fun name _ =>
    TypeScript.markedFields_interfaceOutline side business o name

/-- To require the members of a side is to require the fields of that side at every depth.  Where no
side is required, the mark of a field is a question mark exactly if the field is not required. -/
theorem typesText_optional (business : String) (policy : Policy) (ops : List BoundOperation) :
    (∀ o : BoundOperation, ∀ side, ∀ f ∈ deepFieldsOf ((o.requireAll side).fieldsOf side),
        f.required = true) ∧
      typesText business { policy with requireRequest := true } ops =
        typesText business { policy with requireRequest := false }
          (ops.map (·.requireAll .request)) ∧
      typesText business { policy with requireResponse := true } ops =
        typesText business { policy with requireResponse := false }
          (ops.map (·.requireAll .response)) ∧
      (typesText business ⟨false, false⟩ ops).toList =
        fill (fun _ f => !f.required) (textOutline business ops) ∧
      markedFields (textOutline business ops) = writtenFields ops := by
  refine ⟨fun o side f h => BoundOperation.required_of_mem_requireAll h, typesText_map ?_ ops,
    typesText_map ?_ ops, ?_, markedFields_textOutline business ops⟩
  · refine TypeScript.interfacesOf_requireAll business rfl rfl fun other hother => ?_
    cases other with
    | request => exact absurd rfl hother
    | response => rfl
  · refine TypeScript.interfacesOf_requireAll business rfl rfl fun other hother => ?_
    cases other with
    | request => rfl
    | response => exact absurd rfl hother
  · rw [typesText_eq_fill, TypeScript.isOptional_of_lax]

/-- An operation that asks for a list of pets, each with a name that may be left out. -/
def adopting : BoundOperation where
  url := "/adoptions"
  method := .post
  summary := ""
  requestTypeName := some "PostAdoptionsReqType"
  requestBody := some [{
    key := "pets"
    type := .array (.object [
      { key := "id", type := .primitive .number, required := true },
      { key := "name", type := .primitive .string }])
    origin := some .requestBody }]

/-- The question marks go where the members of requests are required. -/
theorem adopting_optional :
    (∀ f ∈ deepFieldsOf (adopting.requireAll .request).requestFields, f.required = true) ∧
      typesText "pets" ⟨true, true⟩ [adopting] =
        typesText "pets" ⟨false, true⟩ [adopting.requireAll .request] ∧
      (interfacesOf "pets" ⟨false, false⟩ [adopting]).flatMap (·.properties.flatMap (·.chars)) =
        "  pets?: Array<{ id: number; name?: string }>;\n".toList ∧
      (interfacesOf "pets" ⟨true, false⟩ [adopting]).flatMap (·.properties.flatMap (·.chars)) =
        "  pets: Array<{ id: number; name: string }>;\n".toList := by
  have h := typesText_optional "pets" {} [adopting]
  exact ⟨h.1 adopting .request, h.2.1, by decide +kernel, by decide +kernel⟩

end ApiTypes
