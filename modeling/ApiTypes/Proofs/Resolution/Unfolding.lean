import ApiTypes.Proofs.Resolution.Visits

/-! # The unfolding of a schema

What a schema stands for, with no table and no passes: inline schemas by their form, and a reference
by where its name stands to the path (`Unfolds`).  The rules call for the unfolding of other entries,
of names that do not lead back to the path; such a name has a smaller rank, so a function obeys the
rules (`unfold`, `unfolds_unfold`).  Nothing in them depends on the order of declaration
(`Unfolds.of_perm`). -/

namespace ApiTypes

/-- The rules of unfolding, for a schema on the way along a path of names. -/
structure Unfolds (schemas : Table Schema) (g : Graph) (E : List String → Schema → Descriptor) :
    Prop where
  /-- An inline schema is what its form makes of its parts. -/
  inline (path : List String) (shape : Shape) :
    E path (.inline shape) = shape.assemble (fun _ => none) (E path)
  /-- A name on the path is a record. -/
  back {path : List String} {ref name : String} :
    refName ref = .ok name → name ∈ path → E path (.ref ref) = .record
  /-- A name that is not declared stays pending. -/
  undeclared {path : List String} {ref name : String} :
    refName ref = .ok name → name ∉ path → schemas.get? name = none → E path (.ref ref) = .pending name
  /-- A name that leads nowhere on the path is its own entry. -/
  apart {path : List String} {ref name : String} {s : Schema} :
    refName ref = .ok name → name ∉ path → schemas.get? name = some s →
    g.reachesAny name path = false → E path (.ref ref) = E [name] s
  /-- A name that leads back is a record where the path is full. -/
  deep {path : List String} {ref name : String} {s : Schema} :
    refName ref = .ok name → name ∉ path → schemas.get? name = some s →
    g.reachesAny name path = true → maxInlineDepth ≤ path.length → E path (.ref ref) = .record
  /-- A name that leads back is unfolded in place, with the name on the path, where there is room. -/
  inside {path : List String} {ref name : String} {s : Schema} :
    refName ref = .ok name → name ∉ path → schemas.get? name = some s →
    g.reachesAny name path = true → path.length < maxInlineDepth →
    E path (.ref ref) = E (path ++ [name]) s

/-! ### A function that obeys the rules -/

theorem sizeOf_lt_of_mem_parts {shape : Shape} {s : Schema} (h : s ∈ shape.parts) :
    sizeOf s < sizeOf (Schema.inline shape) := by
  obtain ⟨type, description, default, properties, required, items, allOf, oneOf, anyOf, enum⟩ := shape
  simp only [Schema.inline.sizeOf_spec, Shape.mk.sizeOf_spec]
  unfold Shape.parts at h
  have first : ∀ s ∈ allOf.head?.toList, sizeOf s < sizeOf allOf := by
    intro s hs
    exact List.sizeOf_lt_of_mem (List.mem_of_mem_head? (Option.mem_toList.mp hs))
  split at h
  · obtain ⟨p, hp, rfl⟩ := List.mem_map.mp h
    have hlt := List.sizeOf_lt_of_mem hp
    have hp2 : sizeOf p = 1 + sizeOf p.1 + sizeOf p.2 := Prod.mk.sizeOf_spec p.1 p.2
    simp only at hlt
    omega
  · have := first s h
    omega
  · have := first s h
    omega
  · obtain rfl := Option.mem_toList.mp h
    simp only [Option.some.sizeOf_spec]
    omega
  all_goals cases h

/-- The unfolding of a schema, entries of other names being entered so many levels deep. -/
noncomputable def unfoldWithin (schemas : Table Schema) (g : Graph) (levels : Nat) (path : List String) :
    Schema → Descriptor
  | .inline shape => shape.assemble (fun _ => none) fun s =>
      if sizeOf s < sizeOf (Schema.inline shape) then unfoldWithin schemas g levels path s else .any
  | .ref ref =>
    match refName ref with
    | .error _ => .any
    | .ok name =>
      if name ∈ path then .record
      else match schemas.get? name with
        | none => .pending name
        | some s =>
          if g.reachesAny name path then
            if path.length < maxInlineDepth then unfoldWithin schemas g levels (path ++ [name]) s
            else .record
          else match levels with
            | 0 => .any
            | levels + 1 => unfoldWithin schemas g levels [name] s
termination_by s => (levels, maxInlineDepth - path.length, sizeOf s)

/-- The unfolding of a schema.  A chain of lookups is no longer than there are names. -/
noncomputable def unfold (schemas : Table Schema) (g : Graph) :
    List String → Schema → Descriptor :=
  unfoldWithin schemas g schemas.size

section within
variable {schemas : Table Schema} {g : Graph} {levels : Nat} {path : List String}
  {ref name : String} {s : Schema}

theorem unfoldWithin_inline (shape : Shape) : unfoldWithin schemas g levels path (.inline shape) =
    shape.assemble (fun _ => none) (unfoldWithin schemas g levels path) := by
  rw [unfoldWithin]
  apply Shape.assemble_congr
  intro s hs
  rw [if_pos (sizeOf_lt_of_mem_parts hs)]

theorem unfoldWithin_back (href : refName ref = .ok name) (h : name ∈ path) :
    unfoldWithin schemas g levels path (.ref ref) = .record := by
  rw [unfoldWithin]
  simp only [href]
  rw [if_pos h]

theorem unfoldWithin_undeclared (href : refName ref = .ok name) (hn : name ∉ path)
    (h : schemas.get? name = none) :
    unfoldWithin schemas g levels path (.ref ref) = .pending name := by
  rw [unfoldWithin]
  simp only [href, h]
  rw [if_neg hn]

theorem unfoldWithin_inside (href : refName ref = .ok name) (hn : name ∉ path)
    (hs : schemas.get? name = some s) (h : g.reachesAny name path = true)
    (hlt : path.length < maxInlineDepth) :
    unfoldWithin schemas g levels path (.ref ref) =
      unfoldWithin schemas g levels (path ++ [name]) s := by
  rw [unfoldWithin]
  simp only [href, hs]
  rw [if_neg hn, if_pos h, if_pos hlt]

theorem unfoldWithin_deep (href : refName ref = .ok name) (hn : name ∉ path)
    (hs : schemas.get? name = some s) (h : g.reachesAny name path = true)
    (hdeep : maxInlineDepth ≤ path.length) :
    unfoldWithin schemas g levels path (.ref ref) = .record := by
  rw [unfoldWithin]
  simp only [href, hs]
  rw [if_neg hn, if_pos h, if_neg (by omega)]

theorem unfoldWithin_apart (href : refName ref = .ok name) (hn : name ∉ path)
    (hs : schemas.get? name = some s) (h : g.reachesAny name path = false) :
    unfoldWithin schemas g (levels + 1) path (.ref ref) = unfoldWithin schemas g levels [name] s := by
  rw [unfoldWithin]
  simp only [href, hs]
  rw [if_neg hn, if_neg (by simp [h])]

end within

section rules
variable {schemas : Table Schema} {g : Graph} (hg : Graph.ofSchemas schemas = .ok g)
include hg

/-- More levels than the ranks of the lookups make no difference. -/
theorem unfoldWithin_stable (levels : Nat) (path : List String) (s : Schema) (more : Nat)
    (h : ∀ y, LooksUpFrom schemas g path s y →
      rank schemas g y ≤ levels ∧ rank schemas g y ≤ more) :
    unfoldWithin schemas g levels path s = unfoldWithin schemas g more path s := by
  induction levels, path, s using unfoldWithin.induct schemas g generalizing more with
  | case1 levels path shape ih =>
      rw [unfoldWithin_inline, unfoldWithin_inline]
      apply Shape.assemble_congr
      intro s hs
      apply ih s (sizeOf_lt_of_mem_parts hs)
      intro y hy
      exact h y (looksUpFrom_inline_iff.mpr ⟨s, hs, hy⟩)
  | case2 levels path ref e href => rw [unfoldWithin, unfoldWithin, href]
  | case3 levels path ref name href hn =>
      rw [unfoldWithin_back href hn, unfoldWithin_back href hn]
  | case4 levels path ref name href hn hs =>
      rw [unfoldWithin_undeclared href hn hs, unfoldWithin_undeclared href hn hs]
  | case5 levels path ref name href hn s hs hreach hlt ih =>
      rw [unfoldWithin_inside href hn hs hreach hlt, unfoldWithin_inside href hn hs hreach hlt]
      apply ih
      intro y hy
      exact h y ((looksUpFrom_inside_iff href hn hs hreach hlt).mpr hy)
  | case6 levels path ref name href hn s hs hreach hlt =>
      have hdeep : maxInlineDepth ≤ path.length := by omega
      rw [unfoldWithin_deep href hn hs hreach hdeep, unfoldWithin_deep href hn hs hreach hdeep]
  | case7 path ref name href hn s hs hreach =>
      have hy := h name ((looksUpFrom_apart_iff href hn hs (by simpa using hreach)).mpr rfl)
      have hpos : 0 < rank schemas g name := rank_pos (Table.contains_of_get? hs)
      omega
  | case8 path ref name href hn s hs hreach levels ih =>
      have hapart : g.reachesAny name path = false := by simpa using hreach
      have hy := h name ((looksUpFrom_apart_iff href hn hs hapart).mpr rfl)
      cases more with
      | zero =>
          have hpos : 0 < rank schemas g name := rank_pos (Table.contains_of_get? hs)
          omega
      | succ more =>
          rw [unfoldWithin_apart href hn hs hapart, unfoldWithin_apart href hn hs hapart]
          apply ih
          intro y hz
          have hlt : rank schemas g y < rank schemas g name := LooksUp.rank_lt hg ⟨s, hs, hz⟩
          omega

/-- There is a function that obeys the rules. -/
theorem unfolds_unfold : Unfolds schemas g (unfold schemas g) where
  inline path shape := unfoldWithin_inline shape
  back href hn := unfoldWithin_back href hn
  undeclared href hn hs := unfoldWithin_undeclared href hn hs
  deep href hn hs h hdeep := unfoldWithin_deep href hn hs h hdeep
  inside href hn hs h hlt := unfoldWithin_inside href hn hs h hlt
  apart {path ref name s} href hn hs h := by
    have hpos : 0 < rank schemas g name := rank_pos (Table.contains_of_get? hs)
    have hle : rank schemas g name ≤ schemas.size := rank_le_size name
    unfold unfold
    obtain ⟨levels, hlevels⟩ : ∃ levels, schemas.size = levels + 1 := ⟨schemas.size - 1, by omega⟩
    rw [hlevels, unfoldWithin_apart href hn hs h]
    apply unfoldWithin_stable hg
    intro y hy
    have hlt : rank schemas g y < rank schemas g name := LooksUp.rank_lt hg ⟨s, hs, hy⟩
    omega

end rules

/-! ### Other orders of declaration -/

theorem targets_of_undeclared {schemas : Table Schema} {g : Graph}
    (hg : Graph.ofSchemas schemas = .ok g) {name : String} (h : schemas.get? name = none) :
    g.edges.targets name = [] := by
  by_contra hne
  obtain ⟨b, hb⟩ := List.exists_mem_of_ne_nil _ hne
  have hc := contains_of_reaches hg (Relation.TransGen.single hb)
  simp [Table.contains, h] at hc

/-- The edges from a name are those of its declaration, whatever else is declared. -/
theorem targets_eq {schemas other : Table Schema} {g g' : Graph}
    (hg : Graph.ofSchemas schemas = .ok g) (hg' : Graph.ofSchemas other = .ok g') {name : String}
    (h : schemas.get? name = other.get? name) : g.edges.targets name = g'.edges.targets name := by
  cases hs : schemas.get? name with
  | none => rw [targets_of_undeclared hg hs, targets_of_undeclared hg' (h ▸ hs)]
  | some s =>
      have hedges := ofSchemas_targets hg hs
      exact Except.ok.inj (hedges.symm.trans (ofSchemas_targets hg' (h ▸ hs)))

section perm
variable {schemas other : Table Schema} {g g' : Graph} (hp : schemas.entries.Perm other.entries)
include hp

theorem ofSchemas_of_perm (hg : Graph.ofSchemas schemas = .ok g) :
    ∃ g', Graph.ofSchemas other = .ok g' := by
  apply exists_ofSchemas
  intro name s hs
  rw [← Table.get?_of_perm hp] at hs
  exact ⟨_, ofSchemas_targets hg hs⟩

theorem reachesAny_of_perm (hg : Graph.ofSchemas schemas = .ok g)
    (hg' : Graph.ofSchemas other = .ok g') (name : String) (others : List String) :
    g.reachesAny name others = g'.reachesAny name others := by
  have htargets : g.edges.targets = g'.edges.targets :=
    funext fun n => targets_eq hg hg' (Table.get?_of_perm hp n)
  have hreaches : g.edges.Reaches = g'.edges.Reaches := by
    unfold Edges.Reaches Edges.Adjacent
    rw [htargets]
  rw [Bool.eq_iff_iff, reachesAny_eq_true_iff hg, reachesAny_eq_true_iff hg', hreaches]

theorem Unfolds.of_perm {E : List String → Schema → Descriptor}
    (hg : Graph.ofSchemas schemas = .ok g) (hg' : Graph.ofSchemas other = .ok g')
    (h : Unfolds schemas g E) : Unfolds other g' E := by
  have hget := Table.get?_of_perm hp
  have hreach := reachesAny_of_perm hp hg hg'
  constructor
  · exact h.inline
  · exact h.back
  · intro path ref name href hn hs
    exact h.undeclared href hn (hget name ▸ hs)
  · intro path ref name s href hn hs hr
    exact h.apart href hn (hget name ▸ hs) (hreach name path ▸ hr)
  · intro path ref name s href hn hs hr
    exact h.deep href hn (hget name ▸ hs) (hreach name path ▸ hr)
  · intro path ref name s href hn hs hr
    exact h.inside href hn (hget name ▸ hs) (hreach name path ▸ hr)

end perm

end ApiTypes
