import ApiTypes.Proofs.Resolution.Outcome
import ApiTypes.Proofs.Resolution.Restriction
import ApiTypes.Proofs.Resolution.Rounds

/-! # Locality of resolution

Cut down to a closed part of the names, every sweep of a resolution is a sweep of the resolution of
that part alone (`sweep_restrict`), and so is the resolved table (`resolveSchemas_restrict`).  So the
entry of a name depends on what the name reaches and on the order of these names, and on nothing
else (`resolved_local`).

Main definitions: `Progress.restrict`, `Graph.near`, `AgreeNear`. -/

namespace ApiTypes

/-! ### A run and its part -/

/-- The progress with some of the names. -/
def Progress.restrict (keep : String → Bool) (p : Progress) : Progress :=
  ⟨p.table.restrict keep, p.pending.filter keep⟩

section restrict
variable {schemas : Table Schema} {g g' : Graph} {keep : String → Bool}
  (hg : Graph.ofSchemas schemas = .ok g) (hclosed : g.edges.Closed keep)
include hg hclosed

/-- An entry that is made leaves the entries to keep waiting for names to keep, and it is made in
the part exactly if it is to be kept. -/
theorem visit_restrict (hg' : Graph.ofSchemas (schemas.restrict keep) = .ok g') {p q : Progress}
    {e : String × Schema} (he : schemas.get? e.1 = some e.2) (hp : p.table.Keeps keep)
    (h : visit schemas g p e = .ok q) :
    q.table.Keeps keep ∧
      (keep e.1 = true → visit (schemas.restrict keep) g' (p.restrict keep) e = .ok (q.restrict keep)) ∧
      (keep e.1 = false → q.restrict keep = p.restrict keep) := by
  obtain ⟨⟨entry, deferred⟩, hentry, h⟩ := bind_eq_ok.mp h
  obtain rfl := Except.ok.inj h
  have hkeeps := Building.entry_keeps (b := ⟨schemas, g, p.table⟩) hg hclosed hp he hentry
  refine ⟨hp.insert hkeeps, ?_, ?_⟩
  · intro hkeep
    have hpart := Building.entry_restrict (b := ⟨schemas, g, p.table⟩) hg hclosed hp hg' hkeep he
    refine bind_eq_ok.mpr ⟨_, hpart.trans hentry, ?_⟩
    unfold Progress.restrict
    simp only [Table.restrict_insert_of_kept hkeep]
    cases deferred <;> simp [hkeep] <;> rfl
  · intro hdrop
    unfold Progress.restrict
    simp only [Table.restrict_insert_of_dropped hdrop]
    cases deferred <;> simp [hdrop]

/-- A sweep, cut down to a closed part, is a sweep of the part. -/
theorem sweep_restrict (hg' : Graph.ofSchemas (schemas.restrict keep) = .ok g')
    {waits : String → Bool} (waits' : String → Bool) (hwaits : ∀ n, keep n = true → waits' n = waits n)
    {table : Table ResolvedSchema} (htable : table.Keeps keep) {q : Progress}
    (h : sweep schemas g waits table = .ok q) :
    q.table.Keeps keep ∧
      sweep (schemas.restrict keep) g' waits' (table.restrict keep) = .ok (q.restrict keep) := by
  have hentries : (schemas.restrict keep).entries.filter (fun e => waits' e.1) =
      (schemas.entries.filter fun e => waits e.1).filter fun e => keep e.1 := by
    unfold Table.restrict
    rw [List.filter_filter, List.filter_filter]
    apply List.filter_congr
    intro e _
    cases hkeep : keep e.1 with
    | false => simp
    | true => simp [hwaits e.1 hkeep]
  unfold sweep
  rw [hentries]
  refine Stepwise.Yields.foldlM (m := Except InvalidRef) h
    (fun pre p => p.table.Keeps keep ∧
      (pre.filter fun e => keep e.1).foldlM (visit (schemas.restrict keep) g')
        { table := table.restrict keep } = .ok (p.restrict keep)) ⟨htable, rfl⟩ ?_
  rintro pre e post p p' hl ⟨hp, hpart⟩ hstep
  have hmem : e ∈ schemas.entries := List.mem_of_mem_filter (by rw [hl]; simp)
  obtain ⟨hp', hkept, hdropped⟩ :=
    visit_restrict hg hclosed hg' (Table.get?_of_mem hmem) hp hstep
  refine ⟨hp', ?_⟩
  cases hkeep : keep e.1 with
  | true =>
      rw [List.filter_append, List.filter_cons_of_pos (by simp [hkeep]), List.filter_nil,
        List.foldlM_append]
      exact bind_eq_ok.mpr ⟨_, hpart, bind_eq_ok.mpr ⟨_, hkept hkeep, rfl⟩⟩
  | false =>
      rw [List.filter_append, List.filter_cons_of_neg (by simp [hkeep]), List.filter_nil,
        List.append_nil, hdropped hkeep]
      exact hpart

theorem rounds_restrict (hg' : Graph.ofSchemas (schemas.restrict keep) = .ok g') (n : Nat)
    {p q : Progress} (hp : p.table.Keeps keep) (h : rounds schemas g n p = .ok q) :
    rounds (schemas.restrict keep) g' n (p.restrict keep) = .ok (q.restrict keep) := by
  induction n generalizing p with
  | zero =>
      obtain rfl := Except.ok.inj h
      rfl
  | succ n ih =>
      obtain ⟨p', hsweep, h⟩ := bind_eq_ok.mp h
      have hwaits : ∀ n, keep n = true →
          (p.restrict keep).pending.contains n = p.pending.contains n := by
        intro n hn
        rw [Bool.eq_iff_iff, List.contains_iff_mem, List.contains_iff_mem]
        simp [Progress.restrict, hn]
      obtain ⟨hp', hpart⟩ := sweep_restrict hg hclosed hg' _ hwaits hp hsweep
      exact bind_eq_ok.mpr ⟨_, hpart, ih hp' h⟩

/-- The resolved table, cut down to a closed part, is the resolved table of the part. -/
theorem resolveSchemas_restrict {r : Resolution} (h : resolveSchemas schemas = .ok r) :
    ∃ r', resolveSchemas (schemas.restrict keep) = .ok r' ∧ r'.table = r.table.restrict keep := by
  obtain ⟨g', hg'⟩ := ofSchemas_restrict hg keep
  obtain ⟨first, last, reports, _, hfirst, hlast, hr⟩ := resolveSchemas_rounds hg
  obtain ⟨first', last', reports', _, hfirst', hlast', hr'⟩ := resolveSchemas_rounds hg'
  obtain rfl := Except.ok.inj (h.symm.trans hr)
  refine ⟨_, hr', ?_⟩
  obtain ⟨hkeeps, hpart⟩ := sweep_restrict hg hclosed hg' (fun _ => true)
    (fun _ _ => rfl) Table.holds_empty hfirst
  obtain rfl := Except.ok.inj (hfirst'.symm.trans hpart)
  have hrounds := rounds_restrict hg hclosed hg' maxRetryPasses hkeeps hlast
  obtain rfl := Except.ok.inj (hlast'.symm.trans hrounds)
  rfl

end restrict

/-! ### What a name reaches -/

/-- Is the name the first one, or reached from it? -/
def Graph.near (g : Graph) (x y : String) : Bool := y == x || (Graph.reachable g.edges x).contains y

theorem Graph.near_iff {g : Graph} {x y : String} :
    g.near x y = true ↔ Relation.ReflTransGen g.edges.Adjacent x y := by
  unfold near
  rw [Relation.reflTransGen_iff_eq_or_transGen, Bool.or_eq_true, beq_iff_eq,
    List.contains_iff_mem, Graph.mem_reachable_iff]
  rfl

theorem closed_near (g : Graph) (x : String) : g.edges.Closed (g.near x) := by
  intro a b ha hab
  exact Graph.near_iff.mpr ((Graph.near_iff.mp ha).tail hab)

/-- Two tables agree on the name and on all it reaches in the graph of the first: what is declared of
these is the same, and in the same order. -/
structure AgreeNear (schemas other : Table Schema) (g : Graph) (x : String) : Prop where
  /-- The same schema is declared, or none. -/
  declared : ∀ y, Relation.ReflTransGen g.edges.Adjacent x y → schemas.get? y = other.get? y
  /-- One name is declared before another in both tables, or in neither. -/
  order : ∀ y z, Relation.ReflTransGen g.edges.Adjacent x y →
    Relation.ReflTransGen g.edges.Adjacent x z →
    schemas.contains y = true → schemas.contains z = true →
    (schemas.keys.idxOf y < schemas.keys.idxOf z ↔ other.keys.idxOf y < other.keys.idxOf z)

section agree
variable {schemas other : Table Schema} {g : Graph} {x : String}

/-- Tables that agree on a name and on all it reaches have the same part of these. -/
theorem AgreeNear.restrict_eq (h : AgreeNear schemas other g x) :
    schemas.restrict (g.near x) = other.restrict (g.near x) :=
  Table.restrict_eq_of_order (fun y hy => h.declared y (Graph.near_iff.mp hy))
    fun y z hy hz => h.order y z (Graph.near_iff.mp hy) (Graph.near_iff.mp hz)

theorem AgreeNear.closed {g' : Graph} (h : AgreeNear schemas other g x)
    (hg : Graph.ofSchemas schemas = .ok g) (hg' : Graph.ofSchemas other = .ok g') :
    g'.edges.Closed (g.near x) := by
  intro a b ha hab
  unfold Edges.Adjacent at hab
  rw [← targets_eq hg hg' (h.declared a (Graph.near_iff.mp ha))] at hab
  exact closed_near g x a b ha hab

/-- Two tables that agree on a name and on all it reaches give the name the same entry, with its
descriptions, whatever else they declare and however many passes each of them takes. -/
theorem resolved_local {r r' : Resolution} (h : resolveSchemas schemas = .ok r)
    (h' : resolveSchemas other = .ok r') (hg : Graph.ofSchemas schemas = .ok g)
    (hx : schemas.contains x = true) (hagree : AgreeNear schemas other g x) :
    ∃ entry, r.table.get? x = some entry ∧ r'.table.get? x = some entry := by
  obtain ⟨g', hg'⟩ := ofSchemas_of_resolveSchemas h'
  obtain ⟨part, hpart, htable⟩ := resolveSchemas_restrict hg (closed_near g x) h
  obtain ⟨part', hpart', htable'⟩ := resolveSchemas_restrict hg' (hagree.closed hg hg') h'
  rw [hagree.restrict_eq] at hpart
  obtain rfl := Except.ok.inj (hpart.symm.trans hpart')
  have hnear : g.near x x = true := Graph.near_iff.mpr .refl
  have hsame : r.table.get? x = r'.table.get? x := by
    rw [← Table.get?_restrict_of_kept (t := r.table) hnear, ← htable, htable',
      Table.get?_restrict_of_kept hnear]
  obtain ⟨r₀, hr₀, hkeys, _⟩ := resolveSchemas_stage hg
  obtain rfl := Except.ok.inj (h.symm.trans hr₀)
  rw [Table.contains_iff_mem_keys, ← hkeys, ← Table.contains_iff_mem_keys] at hx
  obtain ⟨entry, hentry⟩ := Table.contains_iff.mp hx
  exact ⟨entry, hentry, hsame ▸ hentry⟩

end agree

/-- The family among other names, two of which wait longer than it does. -/
def household : Table Schema := Table.ofList [
  ("Street", .ref "#/schemas/Town"),
  ("Parent", .inline { properties := [("child", .ref "#/schemas/Child")] }),
  ("House", .inline { properties := [("owner", .ref "#/schemas/Parent")] }),
  ("Child", .inline {
    properties := [("parent", .ref "#/schemas/Parent"), ("name", .ref "#/schemas/Name")] }),
  ("Town", .ref "#/schemas/Name"),
  ("Name", .inline { type := some (.single .string) })]

/-- The references of the family. -/
def familyGraph : Graph :=
  .ofEdges [("Parent", ["Child"]), ("Child", ["Parent", "Name"]), ("Name", [])]

theorem family_agrees : AgreeNear family household familyGraph "Parent" := by
  have hreach : Graph.reachable familyGraph.edges "Parent" = ["Name", "Parent", "Child"] := by
    decide +kernel
  have hnear : ∀ y, Relation.ReflTransGen familyGraph.edges.Adjacent "Parent" y →
      y = "Name" ∨ y = "Parent" ∨ y = "Child" := by
    intro y hy
    have h := Graph.near_iff.mpr hy
    unfold Graph.near at h
    rw [hreach, Bool.or_eq_true, beq_iff_eq, List.contains_iff_mem] at h
    rcases h with rfl | h
    · exact Or.inr (Or.inl rfl)
    · simpa using h
  constructor
  · intro y hy
    rcases hnear y hy with rfl | rfl | rfl <;> rfl
  · intro y z hy hz _ _
    rcases hnear y hy with rfl | rfl | rfl <;> rcases hnear z hz with rfl | rfl | rfl <;>
      decide +kernel

/-- The parent has the same entry in both, though it is final after fewer passes than the household
takes. -/
theorem parent_local : ∃ r r', resolveSchemas family = .ok r ∧ resolveSchemas household = .ok r' ∧
    r.passes.length = 1 ∧ r'.passes.length = 2 ∧
    Graph.ofSchemas family = .ok familyGraph ∧ family.contains "Parent" = true ∧
    AgreeNear family household familyGraph "Parent" ∧
    ∃ entry, r.table.get? "Parent" = some entry ∧ r'.table.get? "Parent" = some entry := by
  have hfamily : (resolveSchemas family).toOption.map (·.passes.length) = some 1 := by
    decide +kernel
  have hhousehold : (resolveSchemas household).toOption.map (·.passes.length) = some 2 := by
    decide +kernel
  obtain ⟨r, hr, hpasses⟩ := Option.map_eq_some_iff.mp hfamily
  obtain ⟨r', hr', hpasses'⟩ := Option.map_eq_some_iff.mp hhousehold
  have hr := toOption_eq_some_iff.mp hr
  have hr' := toOption_eq_some_iff.mp hr'
  exact ⟨r, r', hr, hr', hpasses, hpasses', rfl, rfl, family_agrees,
    resolved_local hr hr' rfl rfl family_agrees⟩

end ApiTypes
