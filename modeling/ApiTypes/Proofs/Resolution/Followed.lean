import ApiTypes.Proofs.Resolution.Forms

/-! # References that expansion follows

Expanding a schema asks its lookup for the names that its parts refer to, and for no others.  So
lookups that agree on these names give the same expansion (`expand_congr`), one that waits for
nothing gives the same type (`expand_without_waiting`), and what is left unresolved comes from these
names (`pendingTargets_of_followed`).

Main definitions: `Schema.Follows`, `Expansion.mapDeferred`. -/

namespace ApiTypes

/-- Expanding the schema asks the lookup for the name. -/
inductive Schema.Follows : Schema → String → Prop
  | ref {path name : String} : refName path = .ok name → Follows (.ref path) name
  | part {shape : Shape} {s : Schema} {name : String} :
      s ∈ shape.parts → Follows s name → Follows (.inline shape) name

/-- What is followed is an edge. -/
theorem Schema.Follows.mem_references {s : Schema} {name : String} (h : s.Follows name)
    {found : List String} (hs : s.references = .ok found) : name ∈ found := by
  induction h generalizing found with
  | ref href =>
      obtain ⟨n, hn, rfl⟩ := refName_of_references hs
      obtain rfl := Except.ok.inj (href.symm.trans hn)
      exact List.mem_cons_self
  | part hmem _ ih =>
      obtain ⟨ofPart, hpart, hsub⟩ := references_part hs hmem
      exact hsub (ih hpart)

/-! ### Lookups that agree -/

/-- The expansion with another answer to whether it waits. -/
def Expansion.mapDeferred (f : Bool → Bool) (e : Expansion) : Expansion :=
  { e with deferred := f e.deferred }

theorem describe_congr {l l' : Lookup} {s : Schema}
    (h : ∀ name, s.Follows name → l'.description name = l.description name) :
    describe l' s = describe l s := by
  cases s with
  | inline shape => rfl
  | ref path =>
      cases href : refName path with
      | error e => simp only [describe, href]
      | ok name => simp only [describe, href, h name (.ref href)]

section map
variable {l l' : Lookup} {f : Bool → Bool} (hfalse : f false = false)
  (hor : ∀ a b, f (a || b) = (f a || f b))
include hfalse hor

theorem expandFields_map (required : List String) : ∀ {properties : List (String × Schema)},
    (∀ p ∈ properties, expand l' p.2 = (expand l p.2).map (·.mapDeferred f)) →
    (∀ p ∈ properties, describe l' p.2 = describe l p.2) →
    expandFields l' required properties =
      (expandFields l required properties).map fun r => (r.1, f r.2)
  | [], _, _ => by
      rw [expandFields, expandFields]
      simp only [pure, Except.pure, Except.map, hfalse]
  | (key, s) :: rest, hexpand, hdescribe => by
      have hs := hexpand _ List.mem_cons_self
      have ih := expandFields_map required (fun p hp => hexpand p (List.mem_cons_of_mem _ hp))
        fun p hp => hdescribe p (List.mem_cons_of_mem _ hp)
      rw [expandFields, expandFields, hs, ih, hdescribe _ List.mem_cons_self]
      cases expand l s with
      | error e => rfl
      | ok e =>
          cases expandFields l required rest with
          | error e' => rfl
          | ok r =>
              simp only [bind, Except.bind, Except.map, pure, Except.pure, hor,
                Expansion.mapDeferred]

/-- Where the answers of two lookups differ in the same way in whether they wait, so do the
expansions. -/
theorem expand_map {s : Schema}
    (hresolve : ∀ name, s.Follows name →
      l'.resolve name = (l.resolve name).map (·.mapDeferred f))
    (hdescription : ∀ name, s.Follows name → l'.description name = l.description name) :
    expand l' s = (expand l s).map (·.mapDeferred f) := by
  induction s using Schema.induction with
  | ref path =>
      rw [expand, expand]
      cases href : refName path with
      | error e => rfl
      | ok name => exact hresolve name (.ref href)
  | inline shape ih =>
      have hparts : ∀ s ∈ shape.parts, expand l' s = (expand l s).map (·.mapDeferred f) :=
        fun s hs => ih s hs (fun name h => hresolve name (.part hs h))
          fun name h => hdescription name (.part hs h)
      have hdescribe : ∀ s ∈ shape.parts, describe l' s = describe l s :=
        fun s hs => describe_congr fun name h => hdescription name (.part hs h)
      rw [expand, expand, expandShape_eq, expandShape_eq]
      unfold Shape.parts at hparts hdescribe
      cases hform : shape.form with
      | object =>
          rw [hform] at hparts hdescribe
          simp only [expandFields_map hfalse hor shape.required (List.forall_mem_map.mp hparts)
            (List.forall_mem_map.mp hdescribe)]
          cases expandFields l shape.required shape.properties <;> rfl
      | extension =>
          rw [hform] at hparts
          cases hfirst : shape.allOf with
          | nil => simp [Except.map, Expansion.mapDeferred, hfalse]
          | cons first rest =>
              simp only [hparts first (by simp [hfirst])]
              cases expand l first <;> rfl
      | array =>
          rw [hform] at hparts
          cases hitems : shape.items with
          | none => simp [Except.map, Expansion.mapDeferred, hfalse]
          | some item =>
              simp only [hparts item (by simp [hitems])]
              cases expand l item <;> rfl
      | firstPart =>
          rw [hform] at hparts
          cases hfirst : shape.allOf with
          | nil => simp [Except.map, Expansion.mapDeferred, hfalse]
          | cons first rest => simp only [hparts first (by simp [hfirst])]
      | enumeration base => simp [Except.map, Expansion.mapDeferred, hfalse]
      | primitive p => simp [Except.map, Expansion.mapDeferred, hfalse]
      | record => simp [Except.map, Expansion.mapDeferred, hfalse]
      | any => simp [Except.map, Expansion.mapDeferred, hfalse]

end map

/-- An expansion says no more than what its lookup says of the names followed. -/
theorem expand_congr {l l' : Lookup} {s : Schema}
    (hresolve : ∀ name, s.Follows name → l'.resolve name = l.resolve name)
    (hdescription : ∀ name, s.Follows name → l'.description name = l.description name) :
    expand l' s = expand l s := by
  have hid : ∀ x : Except InvalidRef Expansion, x.map (·.mapDeferred id) = x := by
    intro x
    cases x <;> rfl
  rw [← hid (expand l s)]
  apply expand_map rfl (fun _ _ => rfl) _ hdescription
  intro name h
  rw [hid, hresolve name h]

/-- A lookup that says the same and never waits gives the same type. -/
theorem expand_without_waiting {l l' : Lookup} {s : Schema} {e : Expansion}
    (hresolve : ∀ name, s.Follows name →
      l'.resolve name = (l.resolve name).map fun e => { type := e.type })
    (hdescription : ∀ name, s.Follows name → l'.description name = l.description name)
    (h : expand l s = .ok e) : expand l' s = .ok { type := e.type } := by
  rw [expand_map (f := fun _ => false) rfl (fun _ _ => rfl) hresolve hdescription, h]
  rfl

/-! ### Names left unresolved -/

/-- What is left unresolved in an expansion is left so in what some name followed becomes. -/
theorem pendingTargets_of_followed {l : Lookup} {P : String → Prop} {s : Schema}
    (hresolve : ∀ name e, s.Follows name → l.resolve name = .ok e →
      ∀ n ∈ e.type.pendingTargets, P n) {e : Expansion} (h : expand l s = .ok e) :
    ∀ n ∈ e.type.pendingTargets, P n := by
  induction s using Schema.induction generalizing e with
  | ref path =>
      rw [expand, bind_eq_ok] at h
      obtain ⟨name, href, h⟩ := h
      exact hresolve name e (.ref href) h
  | inline shape ih =>
      obtain ⟨r, hr, htype⟩ := exists_assembled h
      intro n hn
      rw [htype, pendingTargets_assemble] at hn
      obtain ⟨s, hs, hn⟩ := List.mem_flatMap.mp hn
      exact ih s hs (fun name e hfollows => hresolve name e (.part hs hfollows)) (hr s hs) n hn

end ApiTypes
