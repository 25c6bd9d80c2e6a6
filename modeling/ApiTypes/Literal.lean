import ApiTypes.Decimal.Binary64

/-! # Literals

The values a document writes out itself: enum members and defaults.  The members of an object are
kept in the order of their names, each name once.

Main definitions: `Literal`, `Literal.ofMembers`. -/

namespace ApiTypes

open Decimal (Binary64)

/-- A value taken from a document. -/
inductive Literal where
  | null
  | bool (value : Bool)
  | integer (value : Int)
  | real (value : Binary64)
  | text (value : String)
  | list (items : List Literal)
  | object (members : List (String × Literal))

namespace Literal

instance : Inhabited Literal := ⟨.null⟩

mutual
/-- Equality of literals, decided by their structure. -/
def decEq : (a b : Literal) → Decidable (a = b)
  | .null, .null => isTrue rfl
  | .bool a, .bool b => decidable_of_iff (a = b) (by simp)
  | .integer a, .integer b => decidable_of_iff (a = b) (by simp)
  | .real a, .real b => decidable_of_iff (a = b) (by simp)
  | .text a, .text b => decidable_of_iff (a = b) (by simp)
  | .list a, .list b => @decidable_of_iff _ (a = b) (by simp) (decEqList a b)
  | .object a, .object b => @decidable_of_iff _ (a = b) (by simp) (decEqMembers a b)
  | .null, .bool _ | .null, .integer _ | .null, .real _ | .null, .text _ | .null, .list _
  | .null, .object _ | .bool _, .null | .bool _, .integer _ | .bool _, .real _ | .bool _, .text _
  | .bool _, .list _ | .bool _, .object _ | .integer _, .null | .integer _, .bool _
  | .integer _, .real _ | .integer _, .text _ | .integer _, .list _ | .integer _, .object _
  | .real _, .null | .real _, .bool _ | .real _, .integer _ | .real _, .text _ | .real _, .list _
  | .real _, .object _ | .text _, .null | .text _, .bool _ | .text _, .integer _ | .text _, .real _
  | .text _, .list _ | .text _, .object _ | .list _, .null | .list _, .bool _ | .list _, .integer _
  | .list _, .real _ | .list _, .text _ | .list _, .object _ | .object _, .null | .object _, .bool _
  | .object _, .integer _ | .object _, .real _ | .object _, .text _ | .object _, .list _ =>
    isFalse (by simp)

/-- Equality of lists of literals. -/
def decEqList : (a b : List Literal) → Decidable (a = b)
  | [], [] => isTrue rfl
  | a :: as, b :: bs =>
    @decidable_of_iff _ (a = b ∧ as = bs) (by simp)
      (@instDecidableAnd _ _ (decEq a b) (decEqList as bs))
  | [], _ :: _ | _ :: _, [] => isFalse (by simp)

/-- Equality of lists of members. -/
def decEqMembers : (a b : List (String × Literal)) → Decidable (a = b)
  | [], [] => isTrue rfl
  | (m, a) :: as, (n, b) :: bs =>
    @decidable_of_iff _ (m = n ∧ a = b ∧ as = bs) (by simp [and_assoc])
      (@instDecidableAnd _ _ inferInstance
        (@instDecidableAnd _ _ (decEq a b) (decEqMembers as bs)))
  | [], _ :: _ | _ :: _, [] => isFalse (by simp)
end

instance : DecidableEq Literal := decEq

/-- Set a member among members in the order of their names. -/
def putMember (name : String) (value : Literal) :
    List (String × Literal) → List (String × Literal)
  | [] => [(name, value)]
  | (n, v) :: rest =>
    if name = n then (name, value) :: rest
    else if name < n then (name, value) :: (n, v) :: rest
    else (n, v) :: putMember name value rest

/-- The object of members given in any order; the last of one name counts. -/
def ofMembers (members : List (String × Literal)) : Literal :=
  .object (members.foldl (fun kept m => putMember m.1 m.2 kept) [])

end Literal

end ApiTypes
