import ApiTypes.Proofs.Resolution.Components

/-! # Aliases

A name that is declared as a reference alone is an alias.  On a cycle it takes a place of its own on
the path, but what it does there its target does as well: a name leads back to one of them exactly if
it leads back to the other, and a reference to the alias ends in the target (`unfold_beside`).  So an
alias has the type of its target, as long as its component is not too large for the path
(`alias_type_eq`).

Main definition: `BesideAlias`. -/

namespace ApiTypes

/-! ### Paths beside an alias -/

section
variable {schemas : Table Schema} {g : Graph} {x y : String}

variable (schemas g x y) in
/-- A path inside the component of an alias, with its target on it and without the alias. -/
structure BesideAlias (path : List String) : Prop where
  target_mem : y ∈ path
  nodup : (x :: path).Nodup
  subset : x :: path ⊆ component schemas g x

variable {path : List String} {name : String}

theorem BesideAlias.length_le (h : BesideAlias schemas g x y path)
    (hsize : (component schemas g x).length ≤ maxInlineDepth) :
    (x :: path).length ≤ maxInlineDepth :=
  (List.subperm_of_subset h.nodup h.subset).length_le.trans hsize

theorem BesideAlias.append (h : BesideAlias schemas g x y path) (hn : name ∉ x :: path)
    (hname : name ∈ component schemas g x) : BesideAlias schemas g x y (path ++ [name]) where
  target_mem := List.mem_append_left _ h.target_mem
  nodup := by
    rw [← List.cons_append, ← List.concat_eq_append]
    exact h.nodup.concat hn
  subset := by
    rw [← List.cons_append]
    exact List.append_subset.mpr ⟨h.subset, by simpa using hname⟩

/-- What leads back to the alias leads back to its target, which is on the path. -/
theorem BesideAlias.reachesAny_cons (h : BesideAlias schemas g x y path)
    (hg : Graph.ofSchemas schemas = .ok g) (hxy : g.edges.Reaches x y) :
    g.reachesAny name (x :: path) = g.reachesAny name path := by
  rw [Bool.eq_iff_iff, reachesAny_eq_true_iff hg, reachesAny_eq_true_iff hg]
  constructor
  · rintro ⟨o, ho, hreach⟩
    rcases List.mem_cons.mp ho with rfl | ho
    · exact ⟨y, h.target_mem, Relation.TransGen.trans hreach hxy⟩
    · exact ⟨o, ho, hreach⟩
  · rintro ⟨o, ho, hreach⟩
    exact ⟨o, List.mem_cons_of_mem x ho, hreach⟩

end

/-! ### Unfolding beside an alias -/

section target
variable {schemas : Table Schema} {g : Graph} (hg : Graph.ofSchemas schemas = .ok g)
  {x y ref : String} (hx : schemas.get? x = some (.ref ref)) (href : refName ref = .ok y)
include hg hx href

theorem reaches_target : g.edges.Reaches x y := by
  have htargets := ofSchemas_targets hg hx
  obtain ⟨name, hname, hfound⟩ := refName_of_references htargets
  obtain rfl := Except.ok.inj (href.symm.trans hname)
  apply Relation.TransGen.single
  unfold Edges.Adjacent
  rw [hfound]
  exact List.mem_cons_self

variable {E : List String → Schema → Descriptor} (hE : Unfolds schemas g E)
  (hsize : (component schemas g x).length ≤ maxInlineDepth)
include hE hsize

/-- A reference to the alias is a record, whether the alias is on the path or only its target is. -/
theorem unfold_ref_self {path : List String} (hpath : BesideAlias schemas g x y path) {back : String}
    (hback : refName back = .ok x) : E (x :: path) (.ref back) = E path (.ref back) := by
  have hxpath : x ∉ path := (List.nodup_cons.mp hpath.nodup).1
  have hreach : g.reachesAny x path = true :=
    (reachesAny_eq_true_iff hg).mpr ⟨y, hpath.target_mem, reaches_target hg hx href⟩
  have hroom : path.length < maxInlineDepth := hpath.length_le hsize
  rw [hE.back hback List.mem_cons_self, hE.inside hback hxpath hx hreach hroom,
    hE.back href (List.mem_append_left _ hpath.target_mem)]

/-- On a path it makes no difference whether the alias is there, if it makes none on longer paths. -/
theorem unfold_beside_step {path : List String} (hpath : BesideAlias schemas g x y path)
    (longer : ∀ name t, BesideAlias schemas g x y (path ++ [name]) →
      (∃ found, t.references = .ok found ∧ ∀ n ∈ found, g.edges.Reaches x n) →
      E (x :: (path ++ [name])) t = E (path ++ [name]) t)
    (s : Schema) (hs : ∃ found, s.references = .ok found ∧ ∀ n ∈ found, g.edges.Reaches x n) :
    E (x :: path) s = E path s := by
  have hxy := reaches_target hg hx href
  induction s using Schema.induction with
  | inline shape ih =>
      rw [hE.inline, hE.inline]
      apply Shape.assemble_congr
      intro s hmem
      obtain ⟨found, hfound, hreach⟩ := hs
      obtain ⟨ofPart, hpart, hsub⟩ := references_part hfound hmem
      exact ih s hmem ⟨ofPart, hpart, fun n hn => hreach n (hsub hn)⟩
  | ref path' =>
      obtain ⟨found, hfound, hreach⟩ := hs
      obtain ⟨name, hname, rfl⟩ := refName_of_references hfound
      have hxname : g.edges.Reaches x name := hreach name List.mem_cons_self
      by_cases hself : name = x
      · exact unfold_ref_self hg hx href hE hsize hpath (hself ▸ hname)
      by_cases hmem : name ∈ path
      · rw [hE.back hname (List.mem_cons_of_mem x hmem), hE.back hname hmem]
      have hn : name ∉ x :: path := by simp [hself, hmem]
      cases ht : schemas.get? name with
      | none => rw [hE.undeclared hname hn ht, hE.undeclared hname hmem ht]
      | some t =>
          cases hback : g.reachesAny name path with
          | false =>
              have hback' : g.reachesAny name (x :: path) = false :=
                (hpath.reachesAny_cons hg hxy).trans hback
              rw [hE.apart hname hn ht hback', hE.apart hname hmem ht hback]
          | true =>
              have hback' : g.reachesAny name (x :: path) = true :=
                (hpath.reachesAny_cons hg hxy).trans hback
              have hcomponent : name ∈ component schemas g x :=
                mem_component_of_reachesAny hg (Table.contains_of_get? ht) hxname hpath.subset hback'
              have hlonger := hpath.append hn hcomponent
              -- The longer path still fits into the component, so this one is not full.
              have hroom : (x :: path).length < maxInlineDepth := by
                have := hlonger.length_le hsize
                simp only [List.length_cons, List.length_append, List.length_nil] at this ⊢
                omega
              rw [hE.inside hname hn ht hback' hroom,
                hE.inside hname hmem ht hback (Nat.lt_of_succ_lt hroom), List.cons_append]
              exact longer name t hlonger ⟨_, ofSchemas_targets hg ht, fun n h => hxname.tail h⟩

/-- It makes no difference whether the alias is on the path besides its target.  Every name put on
the way takes one from the room. -/
theorem unfold_beside (room : Nat) : ∀ path : List String,
    (x :: path).length + room = maxInlineDepth → BesideAlias schemas g x y path →
    ∀ s : Schema, (∃ found, s.references = .ok found ∧ ∀ n ∈ found, g.edges.Reaches x n) →
    E (x :: path) s = E path s := by
  induction room with
  | zero =>
      intro path hlen hpath
      apply unfold_beside_step hg hx href hE hsize hpath
      intro name t hlonger
      have := hlonger.length_le hsize
      simp only [List.length_cons, List.length_append, List.length_nil] at this hlen
      omega
  | succ room ih =>
      intro path hlen hpath
      apply unfold_beside_step hg hx href hE hsize hpath
      intro name t hlonger
      refine ih _ ?_ hlonger t
      simp only [List.length_cons, List.length_append, List.length_nil] at hlen ⊢
      omega

/-- What an alias stands for is what its target does. -/
theorem unfold_alias (hne : y ≠ x) {t : Schema} (ht : schemas.get? y = some t) :
    E [x] (.ref ref) = E [y] t := by
  have hy : y ∉ [x] := by simpa using hne
  have hxy := reaches_target hg hx href
  cases hback : g.reachesAny y [x] with
  | false => exact hE.apart href hy ht hback
  | true =>
      obtain ⟨o, ho, hyx⟩ := (reachesAny_eq_true_iff hg).mp hback
      obtain rfl := List.mem_singleton.mp ho
      have hpath : BesideAlias schemas g o y [y] := by
        refine ⟨List.mem_singleton_self y, by simpa using hne.symm, ?_⟩
        intro name hname
        simp only [List.mem_cons, List.not_mem_nil, or_false] at hname
        rcases hname with rfl | rfl
        · exact (mem_component_iff (Table.contains_of_get? hx)).mpr ⟨.refl, .refl⟩
        · exact (mem_component_iff (Table.contains_of_get? ht)).mpr
            ⟨hxy.to_reflTransGen, hyx.to_reflTransGen⟩
      rw [hE.inside href hy ht hback (by simp [maxInlineDepth])]
      exact unfold_beside hg hx href hE hsize (maxInlineDepth - 2) [y] rfl hpath t
        ⟨_, ofSchemas_targets hg ht, fun n h => hxy.tail h⟩

end target

/-- An alias of another declared name has the type of its target, where no declared name is pending
in either, if its component has no more names than a path may have. -/
theorem alias_type_eq {schemas : Table Schema} {r : Resolution} (h : resolveSchemas schemas = .ok r)
    {g : Graph} (hg : Graph.ofSchemas schemas = .ok g) {x y ref : String}
    (hx : schemas.get? x = some (.ref ref)) (href : refName ref = .ok y) (hne : y ≠ x)
    (hy : schemas.contains y = true)
    (hsize : (component schemas g x).length ≤ maxInlineDepth) :
    ∃ entry target, r.table.get? x = some entry ∧ r.table.get? y = some target ∧
      ((∀ n ∈ entry.type.pendingTargets, schemas.contains n = false) →
        (∀ n ∈ target.type.pendingTargets, schemas.contains n = false) →
        entry.type.bare = target.type.bare) := by
  obtain ⟨r', hr', hkeys, hfaithful, _⟩ := resolveSchemas_stage hg
  obtain rfl := Except.ok.inj (h.symm.trans hr')
  obtain ⟨entry, hentry⟩ := Table.exists_get?_of_keys hkeys (Table.contains_of_get? hx)
  obtain ⟨target, htarget⟩ := Table.exists_get?_of_keys hkeys hy
  obtain ⟨t, ht⟩ := Table.contains_iff.mp hy
  refine ⟨entry, target, hentry, htarget, ?_⟩
  intro hquiet hquiet'
  have hE := unfolds_unfold hg
  calc entry.type.bare
      = unfold schemas g [x] (.ref ref) :=
        hfaithful x _ entry hx hentry (not_awaits_iff.mpr hquiet) _ hE
    _ = unfold schemas g [y] t := unfold_alias hg hx href hE hsize hne ht
    _ = target.type.bare :=
        (hfaithful y t target ht htarget (not_awaits_iff.mpr hquiet') _ hE).symm

/-- The family with another name for the parent, to which the child leads back. -/
def wards : Table Schema := Table.ofList [
  ("Guardian", .ref "#/schemas/Parent"),
  ("Parent", .inline { properties := [("child", .ref "#/schemas/Child")] }),
  ("Child", .inline {
    properties := [("guardian", .ref "#/schemas/Guardian"), ("name", .ref "#/schemas/Name")] }),
  ("Name", .inline { type := some (.single .string) })]

/-- The references of the wards. -/
def wardsGraph : Graph :=
  .ofEdges [("Guardian", ["Parent"]), ("Parent", ["Child"]), ("Child", ["Guardian", "Name"]),
    ("Name", [])]

/-- An object with the ward in it, where the way back is a record. -/
def wardType : Descriptor := .object [{
  key := "child"
  type := .object [{ key := "guardian", type := .record },
    { key := "name", type := .primitive .string }] }]

/-- The guardian has the type of the parent, though the way back ends in the guardian for the one and
goes through it to the parent for the other. -/
theorem guardian_type : ∃ r entry target, resolveSchemas wards = .ok r ∧
    Graph.ofSchemas wards = .ok wardsGraph ∧
    wards.get? "Guardian" = some (.ref "#/schemas/Parent") ∧
    refName "#/schemas/Parent" = .ok "Parent" ∧ "Parent" ≠ "Guardian" ∧
    wards.contains "Parent" = true ∧
    component wards wardsGraph "Guardian" = ["Guardian", "Parent", "Child"] ∧
    r.table.get? "Guardian" = some entry ∧ r.table.get? "Parent" = some target ∧
    entry.type = wardType ∧ target.type.pendingTargets = [] ∧
    entry.type.bare = target.type.bare := by
  have htypes : ((resolveSchemas wards).toOption.map fun r =>
      ((r.table.get? "Guardian").map (·.type), (r.table.get? "Parent").map (·.type.pendingTargets))) =
        some (some wardType, some []) := by
    decide +kernel
  obtain ⟨r, hr, htypes⟩ := Option.map_eq_some_iff.mp htypes
  have hr := toOption_eq_some_iff.mp hr
  have hdeclared : wards.contains "Parent" = true := by decide +kernel
  have hcomponent : component wards wardsGraph "Guardian" = ["Guardian", "Parent", "Child"] := by
    decide +kernel
  have hsize : (component wards wardsGraph "Guardian").length ≤ maxInlineDepth := by
    rw [hcomponent]
    decide
  obtain ⟨entry, target, hentry, htarget, heq⟩ :=
    alias_type_eq (x := "Guardian") (y := "Parent") hr rfl rfl rfl (by decide) hdeclared hsize
  rw [hentry, htarget] at htypes
  have htype : entry.type = wardType := Option.some.inj (Prod.mk.inj htypes).1
  have hnone : target.type.pendingTargets = [] := Option.some.inj (Prod.mk.inj htypes).2
  refine ⟨r, entry, target, hr, rfl, rfl, rfl, by decide, hdeclared, hcomponent, hentry, htarget,
    htype, hnone, heq ?_ ?_⟩
  · rw [htype]
    exact fun _ hn => nomatch hn
  · rw [hnone]
    exact fun _ hn => nomatch hn

end ApiTypes
