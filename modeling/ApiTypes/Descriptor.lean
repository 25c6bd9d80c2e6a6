import ApiTypes.Literal

/-! # Type descriptors

The shape of a resolved type, with the fields of objects written out in place.

Main definitions: `Primitive`, `Origin`, `Descriptor`, `Field`, `Descriptor.fields?`,
`Descriptor.pendingTargets`, `ResolvedSchema`, `ResolvedSchema.kind`. -/

namespace ApiTypes

/-- A type of single values. -/
inductive Primitive where
  | string
  | number
  | boolean
  deriving DecidableEq, Repr

/-- The word for a primitive type. -/
def Primitive.name : Primitive → String
  | .string => "string"
  | .number => "number"
  | .boolean => "boolean"

/-- Where a field of a request comes from. -/
inductive Origin where
  | query
  | path
  | header
  | cookie
  | formData
  | requestBody
  deriving DecidableEq, Repr

mutual
/-- The shape of a type. -/
inductive Descriptor where
  | primitive (type : Primitive)
  | enumeration (base : Primitive) (values : List Literal)
  | array (item : Descriptor)
  /-- An object with its fields in order. -/
  | object (fields : List Field)
  /-- An object of no particular shape. -/
  | record
  | any
  /-- A reference to a schema that is not resolved. -/
  | pending (name : String)

/-- A property of an object, a parameter, or a field of a body. -/
structure Field where
  key : String
  type : Descriptor
  description : Option String := none
  required : Bool := false
  origin : Option Origin := none
  default : Option Literal := none
end

instance : Inhabited Descriptor := ⟨.any⟩

instance : Inhabited Field := ⟨⟨"", .any, none, false, none, none⟩⟩

namespace Descriptor

/-! ### Equality -/

mutual
/-- Equality of descriptors, decided by their structure. -/
def decEq : (a b : Descriptor) → Decidable (a = b)
  | .primitive a, .primitive b => decidable_of_iff (a = b) (by simp)
  | .enumeration a as, .enumeration b bs => decidable_of_iff (a = b ∧ as = bs) (by simp)
  | .array a, .array b => @decidable_of_iff _ (a = b) (by simp) (decEq a b)
  | .object as, .object bs => @decidable_of_iff _ (as = bs) (by simp) (decEqFields as bs)
  | .record, .record => isTrue rfl
  | .any, .any => isTrue rfl
  | .pending a, .pending b => decidable_of_iff (a = b) (by simp)
  | .primitive _, .enumeration .. | .primitive _, .array _ | .primitive _, .object _
  | .primitive _, .record | .primitive _, .any | .primitive _, .pending _
  | .enumeration .., .primitive _ | .enumeration .., .array _ | .enumeration .., .object _
  | .enumeration .., .record | .enumeration .., .any | .enumeration .., .pending _
  | .array _, .primitive _ | .array _, .enumeration .. | .array _, .object _
  | .array _, .record | .array _, .any | .array _, .pending _
  | .object _, .primitive _ | .object _, .enumeration .. | .object _, .array _
  | .object _, .record | .object _, .any | .object _, .pending _
  | .record, .primitive _ | .record, .enumeration .. | .record, .array _ | .record, .object _
  | .record, .any | .record, .pending _
  | .any, .primitive _ | .any, .enumeration .. | .any, .array _ | .any, .object _
  | .any, .record | .any, .pending _
  | .pending _, .primitive _ | .pending _, .enumeration .. | .pending _, .array _
  | .pending _, .object _ | .pending _, .record | .pending _, .any => isFalse (by simp)

/-- Equality of fields. -/
def decEqField : (a b : Field) → Decidable (a = b)
  | ⟨k, t, d, r, o, v⟩, ⟨k', t', d', r', o', v'⟩ =>
    @decidable_of_iff _ (t = t' ∧ k = k' ∧ d = d' ∧ r = r' ∧ o = o' ∧ v = v')
      (by simp only [Field.mk.injEq]; exact and_left_comm)
      (@instDecidableAnd _ _ (decEq t t') inferInstance)

/-- Equality of lists of fields. -/
def decEqFields : (a b : List Field) → Decidable (a = b)
  | [], [] => isTrue rfl
  | a :: as, b :: bs =>
    @decidable_of_iff _ (a = b ∧ as = bs) (by simp)
      (@instDecidableAnd _ _ (decEqField a b) (decEqFields as bs))
  | [], _ :: _ | _ :: _, [] => isFalse (by simp)
end

instance : DecidableEq Descriptor := decEq

/-! ### What a descriptor holds -/

/-- The fields of an object, or of the objects of an array. -/
def fields? : Descriptor → Option (List Field)
  | .object fields => some fields
  | .array (.object fields) => some fields
  | _ => none

mutual
/-- The names that are not resolved, in order and with repetitions. -/
def pendingTargets : Descriptor → List String
  | .pending name => [name]
  | .array item => pendingTargets item
  | .object fields => pendingInFields fields
  | .primitive _ | .enumeration .. | .record | .any => []

/-- The names that are not resolved in a field. -/
def pendingInField : Field → List String
  | ⟨_, type, _, _, _, _⟩ => pendingTargets type

/-- The names that are not resolved in fields. -/
def pendingInFields : List Field → List String
  | [] => []
  | f :: rest => pendingInField f ++ pendingInFields rest
end

/-- Is a name not resolved anywhere inside? -/
def hasPending (d : Descriptor) : Bool := !d.pendingTargets.isEmpty

end Descriptor

instance : DecidableEq Field := Descriptor.decEqField

/-! ### Resolved schemas -/

/-- A rough kind of type. -/
inductive Kind where
  | primitive
  | object
  | array
  | record
  | unknown
  deriving DecidableEq, Repr

/-- A named schema with everything it refers to written out. -/
structure ResolvedSchema where
  type : Descriptor
  description : Option String := none
  deriving DecidableEq

namespace ResolvedSchema

/-- The kind of the schema. -/
def kind (s : ResolvedSchema) : Kind :=
  match s.type with
  | .primitive _ | .enumeration .. => .primitive
  | .object _ => .object
  | .array _ => .array
  | .record => .record
  | .any | .pending _ => .unknown

/-- The fields of an object schema, or of the objects of an array schema. -/
def properties (s : ResolvedSchema) : Option (List Field) := s.type.fields?

/-- The members of an enumeration. -/
def enumValues (s : ResolvedSchema) : Option (List Literal) :=
  match s.type with
  | .enumeration _ values => some values
  | _ => none

end ResolvedSchema

end ApiTypes
