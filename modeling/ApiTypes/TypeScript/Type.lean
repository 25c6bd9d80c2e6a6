import ApiTypes.Descriptor
import ApiTypes.Literal.Text
import ApiTypes.Text.Search

/-! # TypeScript types

The types that descriptors are written as, and their text.  What is not resolved is `any`, an object
without fields is a record, and an enumeration without members is its primitive type.

Main definitions: `TypeExpr`, `Member`, `Descriptor.typeExpr`, `fieldKey`, `TypeExpr.chars`. -/

namespace ApiTypes

namespace TypeScript

mutual
/-- A type. -/
inductive TypeExpr where
  | keyword (type : Primitive)
  /-- One of several literals. -/
  | union (first : Literal) (others : List Literal)
  | array (item : TypeExpr)
  /-- An object with one member or more. -/
  | object (first : Member) (others : List Member)
  /-- An object with any members. -/
  | record
  | any

/-- A member of an object type. -/
structure Member where
  key : String
  isOptional : Bool
  type : TypeExpr
end

/-! ### Types of descriptors -/

mutual
/-- The type of a descriptor.  With `force` no member is optional. -/
def ofDescriptor (force : Bool) : Descriptor → TypeExpr
  | .primitive p => .keyword p
  | .enumeration base [] => .keyword base
  | .enumeration _ (v :: vs) => .union v vs
  | .array item => .array (ofDescriptor force item)
  | .object [] => .record
  | .object (f :: fs) => .object (ofField force f) (ofFields force fs)
  | .record => .record
  | .any | .pending _ => .any

/-- The member of a field. -/
def ofField (force : Bool) : Field → Member
  | ⟨key, type, _, required, _, _⟩ => ⟨key, !(force || required), ofDescriptor force type⟩

/-- The members of fields. -/
def ofFields (force : Bool) : List Field → List Member
  | [] => []
  | f :: fs => ofField force f :: ofFields force fs
end

/-! ### Text -/

/-- A text between single quotes, with quotes in it escaped. -/
def singleQuoted (s : List Char) : List Char :=
  '\'' :: Text.replaceChar '\'' ['\\', '\''] s ++ ['\'']

/-- A literal: a text between single quotes, any other value as compact JSON. -/
def literalChars : Literal → List Char
  | .text s => singleQuoted s.toList
  | v => v.chars

/-- The literals of a union after the first. -/
def unionChars : List Literal → List Char
  | [] => []
  | v :: vs => ' ' :: '|' :: ' ' :: literalChars v ++ unionChars vs

/-- Is a key written between quotes? -/
def isQuotedKey (key : List Char) : Bool :=
  key.any fun c => c == '-' || c == '_' || c == '.'

/-- The key of a member. -/
def keyChars (key : List Char) : List Char :=
  if isQuotedKey key then singleQuoted key else key

/-- The type of records. -/
def recordChars : List Char := "Record<string, any>".toList

mutual
/-- The characters of a type. -/
def TypeExpr.chars : TypeExpr → List Char
  | .keyword p => p.name.toList
  | .union v vs => literalChars v ++ unionChars vs
  | .array item => "Array<".toList ++ item.chars ++ ['>']
  | .object m ms => '{' :: ' ' :: m.chars ++ membersChars ms ++ [' ', '}']
  | .record => recordChars
  | .any => "any".toList

/-- The characters of a member. -/
def Member.chars : Member → List Char
  | ⟨key, isOptional, type⟩ =>
    keyChars key.toList ++ (if isOptional then ['?'] else []) ++ ':' :: ' ' :: type.chars

/-- The members of an object after the first. -/
def membersChars : List Member → List Char
  | [] => []
  | m :: ms => ';' :: ' ' :: m.chars ++ membersChars ms
end

-- The text in front is unfolded only on the left: to compare it as data takes long.
theorem TypeExpr.chars_array (item : TypeExpr) :
    (array item).chars = "Array<".toList ++ item.chars ++ ['>'] := by
  conv => lhs; unfold TypeExpr.chars

theorem TypeExpr.chars_object (m : Member) (ms : List Member) :
    (object m ms).chars = '{' :: ' ' :: m.chars ++ membersChars ms ++ [' ', '}'] := rfl

end TypeScript

/-- The text of a key. -/
def fieldKey (key : String) : String := String.ofList (TypeScript.keyChars key.toList)

/-- The text of a descriptor's type; with `force` no member is optional. -/
def Descriptor.typeText (d : Descriptor) (force : Bool) : String :=
  String.ofList (TypeScript.ofDescriptor force d).chars

end ApiTypes
