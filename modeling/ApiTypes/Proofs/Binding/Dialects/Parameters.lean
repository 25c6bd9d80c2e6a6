import ApiTypes.Proofs.Binding.Dialects.Version3

/-! # Parameters in either dialect

A parameter has the same field in both dialects (`bindParameter_toVersion3`).  An operation has the
same parameters in both, but for its bodies (`collectParameters_toVersion3`): a body replaces no
parameter beside the bodies, and is replaced by none.

Main definitions: `Binding.besidesBody`. -/

namespace ApiTypes

variable {api : Api} {f : String → String}

theorem Parameter.location_toVersion3 (p : Parameter) :
    (p.toVersion3 f).location = p.location := by
  unfold toVersion3
  split <;> rfl

theorem Parameter.name_toVersion3 (p : Parameter) : (p.toVersion3 f).name = p.name := by
  unfold toVersion3
  split <;> rfl

theorem Parameter.effectiveSchema_toVersion3 (p : Parameter) :
    (p.toVersion3 f).effectiveSchema = p.effectiveSchema.map (·.redirect f) := by
  obtain ⟨name, location, description, required, schema, type, items, enum, default⟩ := p
  cases schema with
  | some s => rfl
  | none =>
      cases type with
      | none => rfl
      | some type => simp [toVersion3, effectiveSchema, Schema.redirect, Shape.redirect_eq]

theorem Parameter.defaultValue_toVersion3 (p : Parameter) :
    (p.toVersion3 f).defaultValue = p.defaultValue := by
  obtain ⟨name, location, description, required, schema, type, items, enum, default⟩ := p
  cases schema with
  | none => cases type <;> rfl
  | some s =>
      cases s with
      | ref path => rfl
      | inline shape => simp [toVersion3, defaultValue, Schema.redirect, Shape.redirect_eq]

namespace Binding

/-- A parameter has the same field in both dialects. -/
theorem bindParameter_toVersion3 (hf : KeepsNames f) (table : Table ResolvedSchema)
    (p : Parameter) : bindParameter table (p.toVersion3 f) = bindParameter table p := by
  have hdescription : (p.toVersion3 f).description = p.description := by
    unfold Parameter.toVersion3
    split <;> rfl
  have hrequired : (p.toVersion3 f).required = p.required := by
    unfold Parameter.toVersion3
    split <;> rfl
  unfold bindParameter
  rw [Parameter.effectiveSchema_toVersion3, Parameter.defaultValue_toVersion3,
    Parameter.name_toVersion3, Parameter.location_toVersion3, hdescription, hrequired]
  cases p.effectiveSchema with
  | none => rfl
  | some s => simp [expand_redirect hf, describe_redirect hf]

theorem sameParameter_toVersion3 (p q : Parameter) :
    sameParameter (p.toVersion3 f) (q.toVersion3 f) = sameParameter p q := by
  unfold sameParameter
  simp only [Parameter.name_toVersion3, Parameter.location_toVersion3]

/-- The parameters beside a body, in version 3. -/
def besidesBody (f : String → String) (ps : List Parameter) : List Parameter :=
  (ps.filter (·.location ≠ .body)).map (Parameter.toVersion3 f)

/-- A parameter that is no body replaces the same parameters in both dialects. -/
theorem besidesBody_replace {p : Parameter} (hp : p.location ≠ .body) (kept : List Parameter) :
    besidesBody f (kept.filter (!sameParameter · p) ++ [p]) =
      (besidesBody f kept).filter (!sameParameter · (p.toVersion3 f)) ++ [p.toVersion3 f] := by
  have hlast : besidesBody f [p] = [p.toVersion3 f] := by simp [besidesBody, hp]
  have hkept : besidesBody f (kept.filter (!sameParameter · p)) =
      (besidesBody f kept).filter (!sameParameter · (p.toVersion3 f)) := by
    unfold besidesBody
    rw [List.filter_map, List.filter_filter, List.filter_filter]
    simp only [Function.comp_def, sameParameter_toVersion3, Bool.and_comm]
  rw [← hkept, ← hlast]
  simp only [besidesBody, List.filter_append, List.map_append]

/-- A body replaces bodies alone. -/
theorem besidesBody_replace_body {p : Parameter} (hp : p.location = .body)
    (kept : List Parameter) :
    besidesBody f (kept.filter (!sameParameter · p) ++ [p]) = besidesBody f kept := by
  have hkept : (kept.filter (!sameParameter · p)).filter (·.location ≠ .body) =
      kept.filter (·.location ≠ .body) := by
    rw [List.filter_filter]
    apply List.filter_congr
    intro q _
    by_cases hq : q.location = .body <;> simp [sameParameter, hp, hq]
  unfold besidesBody
  rw [List.filter_append, hkept]
  simp [hp]

/-! ### Parameters that are collected -/

theorem lookupParameter_of_namesBody {r : RefOr Parameter} (h : api.namesBody r = true) :
    ∃ p, lookupParameter api r = pure (some p) ∧ p.location = .body := by
  unfold Api.namesBody at h
  cases hp : api.parameter? r with
  | none =>
      rw [hp] at h
      cases h
  | some p =>
      rw [hp] at h
      refine ⟨p, ?_, of_decide_eq_true h⟩
      cases r with
      | item q =>
          obtain rfl := Option.some.inj hp
          rfl
      | ref path =>
          obtain ⟨name, hname, hfind⟩ := Option.bind_eq_some_iff.mp hp
          exact lookupParameter_of_find (toOption_eq_some_iff.mp hname) hfind

section collect
variable (hapi : api.IsVersion2) (hf : KeepsNames f)
include hapi hf

/-- A parameter that is no body is looked up in both dialects. -/
theorem lookupParameter_toVersion3 {r : RefOr Parameter} (hr : api.namesBody r = false) :
    Noting.Matches (fun o o' => (∀ p ∈ o, p.location ≠ .body) ∧ o' = o.map (Parameter.toVersion3 f))
      (lookupParameter api r)
      (lookupParameter (api.toVersion3 f) (r.mapBoth f (Parameter.toVersion3 f))) := by
  have hnone : ∀ p ∈ api.parameter? r, p.location ≠ .body := by
    intro p hp
    unfold Api.namesBody at hr
    rw [Option.mem_def.mp hp] at hr
    exact of_decide_eq_false hr
  cases r with
  | item p => exact .pure ⟨hnone, rfl⟩
  | ref path =>
      rw [RefOr.mapBoth, lookupParameter_ref, lookupParameter_ref, hf path]
      refine (Noting.Matches.lift (refName path)).bind_eq fun name hname => ?_
      have hname : refName path = .ok name := Noting.eq_ok_of_yields_lift hname
      rw [Api.parameter?, hname] at hnone
      change ∀ p ∈ api.findParameter name, _ at hnone
      rw [hapi.findParameter_toVersion3]
      cases hfind : api.findParameter name with
      | some p => exact .pure ⟨hfind ▸ hnone, rfl⟩
      | none => exact Noting.Matches.note_pure _ _ ⟨by simp, rfl⟩

/-- The parameters of a path, without its bodies. -/
theorem mapM_lookupParameter_toVersion3 : ∀ refs : List (RefOr Parameter),
    Noting.Matches (fun l l' => l'.filterMap id = besidesBody f (l.filterMap id))
      (refs.mapM (lookupParameter api))
      ((api.besidesBody f refs).mapM (lookupParameter (api.toVersion3 f)))
  | [] => .pure rfl
  | r :: rest => by
      have ih := mapM_lookupParameter_toVersion3 rest
      unfold Api.besidesBody at ih ⊢
      rw [List.mapM_cons]
      cases hbody : api.namesBody r with
      | true =>
          obtain ⟨p, hp, hlocation⟩ := lookupParameter_of_namesBody hbody
          -- Looking up a body notes nothing and does not fail, so nothing is missed without it.
          rw [List.filter_cons_of_neg (by simp [hbody]), hp, pure_bind,
            ← bind_pure (List.mapM (lookupParameter (api.toVersion3 f)) _)]
          refine ih.bind ?_
          intro l l' _ _ hl
          apply Noting.Matches.pure
          simpa [besidesBody, hlocation] using hl
      | false =>
          rw [List.filter_cons_of_pos (by simp [hbody]), List.map_cons, List.mapM_cons]
          refine (lookupParameter_toVersion3 hapi hf hbody).bind ?_
          rintro o _ _ _ ⟨hlocation, rfl⟩
          refine ih.bind ?_
          intro l l' _ _ hl
          apply Noting.Matches.pure
          cases o with
          | none => simpa using hl
          | some p =>
              have hp : p.location ≠ .body := hlocation p rfl
              simpa [besidesBody, hp] using hl

/-- The parameters of an operation, without its bodies. -/
theorem foldlM_collectOne_toVersion3 : ∀ (refs : List (RefOr Parameter)) (kept : List Parameter),
    Noting.Matches (fun ps ps' => ps' = besidesBody f ps)
      (refs.foldlM (collectOne api) kept)
      ((api.besidesBody f refs).foldlM (collectOne (api.toVersion3 f)) (besidesBody f kept))
  | [], kept => .pure rfl
  | r :: rest, kept => by
      have ih := foldlM_collectOne_toVersion3 rest
      unfold Api.besidesBody at ih ⊢
      rw [List.foldlM_cons, collectOne]
      cases hbody : api.namesBody r with
      | true =>
          obtain ⟨p, hp, hlocation⟩ := lookupParameter_of_namesBody hbody
          -- The body changes what is kept, but nothing of it beside the bodies.
          rw [List.filter_cons_of_neg (by simp [hbody]), hp, pure_bind, pure_bind,
            ← besidesBody_replace_body hlocation kept]
          exact ih _
      | false =>
          rw [List.filter_cons_of_pos (by simp [hbody]), List.map_cons, List.foldlM_cons, collectOne,
            bind_assoc, bind_assoc]
          refine (lookupParameter_toVersion3 hapi hf hbody).bind ?_
          rintro o _ _ _ ⟨hlocation, rfl⟩
          cases o with
          | none => exact ih kept
          | some p =>
              simp only [Option.map_some, pure_bind, ← besidesBody_replace (hlocation p rfl)]
              exact ih _

theorem collectParameters_toVersion3 (ofPath ofOperation : List (RefOr Parameter)) :
    Noting.Matches (fun ps ps' => ps' = besidesBody f ps)
      (collectParameters api ofPath ofOperation)
      (collectParameters (api.toVersion3 f) (api.besidesBody f ofPath)
        (api.besidesBody f ofOperation)) := by
  rw [collectParameters_def, collectParameters_def]
  refine (mapM_lookupParameter_toVersion3 hapi hf ofPath).bind ?_
  intro l l' _ _ hl
  rw [hl]
  exact foldlM_collectOne_toVersion3 hapi hf ofOperation _

end collect

end Binding

end ApiTypes
