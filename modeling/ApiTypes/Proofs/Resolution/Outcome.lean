import ApiTypes.Proofs.Resolution.Passes

/-! # What resolution comes to

Resolution of a table with valid references succeeds; where it fails, it fails for the references of a
declared schema (`exists_of_resolveSchemas_error`).  An entry in which no declared name is left
pending is the unfolding of its name, whatever the order of declaration and the number of passes
(`resolved_unfolds`), and a declared name is left pending in an entry exactly when a chain of
lookups from it goes forward more often than there are retry passes (`pending_iff_long_chain`). -/

namespace ApiTypes

variable {schemas : Table Schema} {g : Graph}

theorem not_awaits_iff {d : Descriptor} : ¬ d.Awaits schemas ↔
    ∀ n ∈ d.pendingTargets, schemas.contains n = false := by
  simp [Descriptor.Awaits]

theorem ofSchemas_of_resolveSchemas {r : Resolution} (h : resolveSchemas schemas = .ok r) :
    ∃ g, Graph.ofSchemas schemas = .ok g := by
  unfold resolveSchemas at h
  obtain ⟨g, hg, _⟩ := bind_eq_ok.mp h
  exact ⟨g, hg⟩

/-- Once the references are listed, nothing fails. -/
theorem resolveSchemas_eq_error_iff_ofSchemas {e : InvalidRef} :
    resolveSchemas schemas = .error e ↔ Graph.ofSchemas schemas = .error e := by
  cases hg : Graph.ofSchemas schemas with
  | ok g =>
      obtain ⟨r, hr, _⟩ := resolveSchemas_stage hg
      simp [hr]
  | error e' =>
      simp [resolveSchemas, hg, bind, Except.bind]

/-- Resolution fails for the references of a declared schema and for nothing else. -/
theorem exists_of_resolveSchemas_error {e : InvalidRef} (h : resolveSchemas schemas = .error e) :
    ∃ name s, schemas.get? name = some s ∧ s.references = .error e := by
  have hg := resolveSchemas_eq_error_iff_ofSchemas.mp h
  unfold Graph.ofSchemas at hg
  obtain ⟨⟨name, s⟩, hs, he⟩ := exists_of_mapM_eq_error (bind_pure_eq_error.mp hg)
  exact ⟨name, s, Table.get?_of_mem hs, bind_pure_eq_error.mp he⟩

theorem settled_iff_of_get? {table : Table ResolvedSchema} {x : String} {entry : ResolvedSchema}
    (h : table.get? x = some entry) : Settled schemas table x ↔ ¬ entry.type.Awaits schemas := by
  unfold Settled
  rw [h]
  simp

/-- Every table with valid references is resolved, entry by entry and in order.  The entries in
which no declared name is pending are the unfoldings of their names; so they are the same in any
other order of declaration. -/
theorem resolved_unfolds (hg : Graph.ofSchemas schemas = .ok g) :
    ∃ r, resolveSchemas schemas = .ok r ∧ r.table.keys = schemas.keys ∧
      (∃ E, Unfolds schemas g E) ∧
      (∀ E, Unfolds schemas g E → ∀ x s entry, schemas.get? x = some s →
        r.table.get? x = some entry →
        (∀ n ∈ entry.type.pendingTargets, schemas.contains n = false) →
        entry.type.bare = E [x] s) ∧
      ∀ other : Table Schema, schemas.entries.Perm other.entries →
        ∃ r', resolveSchemas other = .ok r' ∧ ∀ x entry entry',
          r.table.get? x = some entry → r'.table.get? x = some entry' →
          (∀ n ∈ entry.type.pendingTargets, schemas.contains n = false) →
          (∀ n ∈ entry'.type.pendingTargets, schemas.contains n = false) →
          entry.type.bare = entry'.type.bare := by
  obtain ⟨r, hr, hkeys, hfaithful, _⟩ := resolveSchemas_stage hg
  refine ⟨r, hr, hkeys, ⟨_, unfolds_unfold hg⟩, ?_, ?_⟩
  · intro E hE x s entry hs hentry hquiet
    exact hfaithful x s entry hs hentry (not_awaits_iff.mpr hquiet) E hE
  · intro other hperm
    obtain ⟨g', hg'⟩ := ofSchemas_of_perm hperm hg
    obtain ⟨r', hr', _, hfaithful', _⟩ := resolveSchemas_stage hg'
    refine ⟨r', hr', ?_⟩
    intro x entry entry' hentry hentry' hquiet hquiet'
    have hx : schemas.contains x = true := by
      rw [Table.contains_iff_mem_keys, ← hkeys, ← Table.contains_iff_mem_keys]
      exact Table.contains_of_get? hentry
    obtain ⟨s, hs⟩ := Table.contains_iff.mp hx
    have hs' : other.get? x = some s := Table.get?_of_perm hperm x ▸ hs
    have hnot' : ¬ entry'.type.Awaits other := by
      rw [not_awaits_iff]
      intro n hn
      rw [← Table.contains_of_perm hperm]
      exact hquiet' n hn
    have hE := unfolds_unfold hg
    calc entry.type.bare
        = unfold schemas g [x] s := hfaithful x s entry hs hentry (not_awaits_iff.mpr hquiet) _ hE
      _ = entry'.type.bare :=
        (hfaithful' x s entry' hs' hentry' hnot' _ (hE.of_perm hperm hg hg')).symm

/-- A parent with a child that leads back to it, and the child's name, declared after both. -/
def family : Table Schema := Table.ofList [
  ("Parent", .inline { properties := [("child", .ref "#/schemas/Child")] }),
  ("Child", .inline {
    properties := [("parent", .ref "#/schemas/Parent"), ("name", .ref "#/schemas/Name")] }),
  ("Name", .inline { type := some (.single .string) })]

/-- The parent is unfolded with the name in it, and only where the child leads back is a record. -/
theorem family_unfolds :
    Graph.ofSchemas family =
        .ok (.ofEdges [("Parent", ["Child"]), ("Child", ["Parent", "Name"]), ("Name", [])]) ∧
      ∃ r, resolveSchemas family = .ok r ∧ r.table.keys = ["Parent", "Child", "Name"] ∧
        ∀ E, Unfolds family
            (.ofEdges [("Parent", ["Child"]), ("Child", ["Parent", "Name"]), ("Name", [])]) E →
          E ["Parent"] (.inline { properties := [("child", .ref "#/schemas/Child")] }) =
            .object [{
              key := "child"
              type := .object [{ key := "parent", type := .record },
                { key := "name", type := .primitive .string }] }] := by
  have hg : Graph.ofSchemas family =
      .ok (.ofEdges [("Parent", ["Child"]), ("Child", ["Parent", "Name"]), ("Name", [])]) := rfl
  obtain ⟨r, hr, hkeys, _, hunfolds, _⟩ := resolved_unfolds hg
  have hentry : ((resolveSchemas family).toOption.bind fun r => r.table.get? "Parent") = some ⟨
      .object [{
        key := "child"
        type := .object [{ key := "parent", type := .record },
          { key := "name", type := .primitive .string }] }], none⟩ := by decide +kernel
  rw [hr] at hentry
  exact ⟨hg, r, hr, hkeys, fun E hE =>
    (hunfolds E hE "Parent" _ _ rfl hentry (fun _ h => nomatch h)).symm⟩

/-- In an entry a declared name is left pending exactly when a chain of lookups leads forward more
often than there are retry passes. -/
theorem pending_iff_long_chain {r : Resolution} (h : resolveSchemas schemas = .ok r) :
    ∃ g, Graph.ofSchemas schemas = .ok g ∧ r.table.keys = schemas.keys ∧
      ∀ x entry, r.table.get? x = some entry →
        ((∃ n ∈ entry.type.pendingTargets, schemas.contains n = true) ↔
          ∃ rest, (x :: rest).IsChain (LooksUp schemas g) ∧
            maxRetryPasses < forwardSteps schemas (x :: rest)) := by
  obtain ⟨g, hg⟩ := ofSchemas_of_resolveSchemas h
  obtain ⟨r', hr', hkeys, _, hsettled⟩ := resolveSchemas_stage hg
  obtain rfl := Except.ok.inj (h.symm.trans hr')
  refine ⟨g, hg, hkeys, ?_⟩
  intro x entry hentry
  have hx : schemas.contains x = true := by
    rw [Table.contains_iff_mem_keys, ← hkeys, ← Table.contains_iff_mem_keys]
    exact Table.contains_of_get? hentry
  have hfinal : ¬ entry.type.Awaits schemas ↔ FinalAfter schemas g (maxRetryPasses + 1) x := by
    rw [← settled_iff_of_get? hentry]
    exact hsettled x hx
  change entry.type.Awaits schemas ↔ _
  rw [← not_iff_not, hfinal]
  unfold FinalAfter
  simp only [not_exists, not_and, Nat.not_lt, Nat.lt_succ_iff]

/-- Names declared one after the other, each of which stands for the next. -/
def relay (length : Nat) : Table Schema := Table.ofList ((List.range length).map fun i =>
  (String.ofList (List.replicate (i + 1) 'a'),
    .ref ("#/schemas/" ++ String.ofList (List.replicate (i + 2) 'a'))))

/-- Seventeen steps forward are one too many. -/
theorem relay_pending : ∃ r, resolveSchemas (relay 18) = .ok r ∧ ∃ g rest,
    Graph.ofSchemas (relay 18) = .ok g ∧ ("a" :: rest).IsChain (LooksUp (relay 18) g) ∧
      maxRetryPasses < forwardSteps (relay 18) ("a" :: rest) := by
  have hpending : ((resolveSchemas (relay 18)).toOption.bind fun r => r.table.get? "a") =
      some ⟨.pending "aaaaaaaaaaaaaaaaaa", none⟩ := by decide +kernel
  obtain ⟨r, hr, hpending⟩ := Option.bind_eq_some_iff.mp hpending
  have hr := toOption_eq_some_iff.mp hr
  obtain ⟨g, hg, _, hiff⟩ := pending_iff_long_chain hr
  obtain ⟨rest, hchain, hlong⟩ := (hiff "a" _ hpending).mp
    ⟨"aaaaaaaaaaaaaaaaaa", List.mem_cons_self, by decide +kernel⟩
  exact ⟨r, hr, g, rest, hg, hchain, hlong⟩

end ApiTypes
