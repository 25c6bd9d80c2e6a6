import ApiTypes.Proofs.Resolution.Entries
import ApiTypes.Proofs.Resolution.Followed
import ApiTypes.Proofs.Resolution.Preservation

/-! # Closed parts of a description

Names are closed when they refer to none but each other.  Among them the graph of references is the
same whatever else is declared (`reachesAny_of_closed`), and the entry of one of them is the same
when the schemas and the table are cut down to them (`entry_restrict`).

Main definitions: `Edges.Closed`, `Table.Keeps`. -/

namespace ApiTypes

/-- Names to keep refer to names to keep. -/
def Edges.Closed (e : Edges) (keep : String → Bool) : Prop :=
  ∀ a b, keep a = true → e.Adjacent a b → keep b = true

/-- Entries of names to keep wait for names to keep. -/
def Table.Keeps (table : Table ResolvedSchema) (keep : String → Bool) : Prop :=
  table.Holds fun name entry => keep name = true → ∀ n ∈ entry.type.pendingTargets, keep n = true

variable {keep : String → Bool}

/-! ### Paths -/

theorem Edges.Reaches.of_closed {e e' : Edges} (hclosed : e.Closed keep)
    (hsame : ∀ a, keep a = true → e.targets a = e'.targets a) {a b : String}
    (ha : keep a = true) (h : e.Reaches a b) : keep b = true ∧ e'.Reaches a b := by
  have hedge : ∀ {a b}, keep a = true → e.Adjacent a b → e'.Adjacent a b := by
    intro a b ha hab
    unfold Adjacent at hab ⊢
    rwa [← hsame a ha]
  induction h with
  | single hab => exact ⟨hclosed _ _ ha hab, .single (hedge ha hab)⟩
  | tail _ hbc ih => exact ⟨hclosed _ _ ih.1 hbc, ih.2.tail (hedge ih.1 hbc)⟩

section graph
variable {schemas other : Table Schema} {g g' : Graph} (hg : Graph.ofSchemas schemas = .ok g)
include hg

theorem ofSchemas_restrict (keep : String → Bool) :
    ∃ g', Graph.ofSchemas (schemas.restrict keep) = .ok g' := by
  apply exists_ofSchemas
  intro name s hs
  rw [Table.get?_restrict] at hs
  split at hs
  · exact ⟨_, ofSchemas_targets hg hs⟩
  · cases hs

/-- Descriptions that declare the names of a closed part alike have the same paths from them. -/
theorem reachesAny_of_closed (hg' : Graph.ofSchemas other = .ok g')
    (hsame : ∀ a, keep a = true → schemas.get? a = other.get? a)
    (hclosed : g.edges.Closed keep) {name : String} (hname : keep name = true)
    (others : List String) : g'.reachesAny name others = g.reachesAny name others := by
  have htargets : ∀ a, keep a = true → g.edges.targets a = g'.edges.targets a :=
    fun a ha => targets_eq hg hg' (hsame a ha)
  have hclosed' : g'.edges.Closed keep := by
    intro a b ha hab
    unfold Edges.Adjacent at hab
    rw [← htargets a ha] at hab
    exact hclosed a b ha hab
  rw [Bool.eq_iff_iff, reachesAny_eq_true_iff hg, reachesAny_eq_true_iff hg']
  constructor
  · rintro ⟨o, ho, h⟩
    exact ⟨o, ho, (h.of_closed hclosed' (fun a ha => (htargets a ha).symm) hname).2⟩
  · rintro ⟨o, ho, h⟩
    exact ⟨o, ho, (h.of_closed hclosed htargets hname).2⟩

theorem Edges.Closed.of_follows (hclosed : g.edges.Closed keep) {name : String} {s : Schema}
    (hname : keep name = true) (hs : schemas.get? name = some s) {n : String} (h : s.Follows n) :
    keep n = true :=
  hclosed name n hname (h.mem_references (ofSchemas_targets hg hs))

end graph

/-! ### Entries -/

namespace Building

variable {b : Building} (hg : Graph.ofSchemas b.schemas = .ok b.graph)
  (hclosed : b.graph.edges.Closed keep) (htable : b.table.Keeps keep)

include htable in
theorem lookUp_keeps {name : String} (hname : keep name = true) :
    ∀ n ∈ (b.lookUp name).type.pendingTargets, keep n = true := by
  cases ht : b.table.get? name with
  | none =>
      rw [lookUp_of_get?_none ht]
      intro n hn
      obtain rfl := List.mem_singleton.mp hn
      exact hname
  | some entry =>
      rw [lookUp_of_get? ht]
      exact htable name entry ht hname

include hg hclosed htable in
/-- What a name to keep becomes waits for names to keep; each name put on the way takes one from the
room. -/
theorem resolveAt_keeps : ∀ (room : Nat) (path : List String) (name : String) (e : Expansion),
    keep name = true → b.resolveAt room path name = .ok e →
    ∀ n ∈ e.type.pendingTargets, keep n = true := by
  intro room path name e hname h
  rcases resolveAt_cases h with rfl | rfl | rfl | ⟨rest, s, rfl, hs, he⟩
  · simp [Descriptor.pendingTargets]
  · simpa [Descriptor.pendingTargets] using hname
  · exact lookUp_keeps htable hname
  · refine pendingTargets_of_followed ?_ he
    intro n e' hn
    exact resolveAt_keeps rest _ n e' (hclosed.of_follows hg hname hs hn)

include hg hclosed htable in
/-- The entry of a name to keep waits for names to keep. -/
theorem entry_keeps {name : String} {s : Schema} {entry : ResolvedSchema} {deferred : Bool}
    (hs : b.schemas.get? name = some s) (h : b.entry name s = .ok (entry, deferred)) :
    keep name = true → ∀ n ∈ entry.type.pendingTargets, keep n = true := by
  intro hname
  obtain ⟨e, he, h⟩ := bind_eq_ok.mp h
  obtain ⟨rfl, _⟩ := Prod.mk.inj (Except.ok.inj h)
  refine pendingTargets_of_followed ?_ he
  intro n e' hn
  exact resolveAt_keeps hg hclosed htable _ _ n e' (hclosed.of_follows hg hname hs hn)

/-! ### Entries of a part -/

/-- The schemas and the table cut down to some names, with the graph of these. -/
def restrict (keep : String → Bool) (g' : Graph) (b : Building) : Building :=
  ⟨b.schemas.restrict keep, g', b.table.restrict keep⟩

variable {g' : Graph}

theorem description_restrict {name : String} (hname : keep name = true) :
    (b.restrict keep g').description name = b.description name := by
  unfold description restrict
  rw [Table.get?_restrict_of_kept hname, Table.get?_restrict_of_kept hname]

include htable in
theorem lookUp_restrict {name : String} (hname : keep name = true) :
    (b.restrict keep g').lookUp name = b.lookUp name := by
  unfold lookUp restrict
  rw [Table.get?_restrict_of_kept hname]
  cases ht : b.table.get? name with
  | none => rfl
  | some entry =>
      have hkeep := htable name entry ht hname
      have hany : entry.type.pendingTargets.any (b.schemas.restrict keep).contains =
          entry.type.pendingTargets.any b.schemas.contains := by
        rw [Bool.eq_iff_iff, List.any_eq_true, List.any_eq_true]
        refine exists_congr fun n => and_congr_right fun hn => ?_
        rw [Table.contains_restrict_of_kept (hkeep n hn)]
      simp only [hany]

variable (hg' : Graph.ofSchemas (b.schemas.restrict keep) = .ok g')
include hg hclosed htable hg'

theorem resolveAt_restrict : ∀ (room : Nat) (path : List String) (name : String),
    keep name = true →
    (b.restrict keep g').resolveAt room path name = b.resolveAt room path name := by
  intro room path name hname
  have hget : (b.restrict keep g').schemas.get? name = b.schemas.get? name :=
    Table.get?_restrict_of_kept hname
  have hreaches : (b.restrict keep g').graph.reachesAny name path =
      b.graph.reachesAny name path :=
    reachesAny_of_closed hg hg' (fun _ ha => (Table.get?_restrict_of_kept ha).symm) hclosed hname _
  by_cases hn : name ∈ path
  · rw [resolveAt_back hn, resolveAt_back hn]
  cases hs : b.schemas.get? name with
  | none => rw [resolveAt_undeclared hn hs, resolveAt_undeclared hn (hget.trans hs)]
  | some s =>
      cases hreach : b.graph.reachesAny name path with
      | false =>
          rw [resolveAt_apart hn hs hreach,
            resolveAt_apart hn (hget.trans hs) (hreaches.trans hreach),
            lookUp_restrict htable hname]
      | true =>
          cases room with
          | zero =>
              rw [resolveAt_deep hn hs hreach,
                resolveAt_deep hn (hget.trans hs) (hreaches.trans hreach)]
          | succ room =>
              rw [resolveAt_inside hn hs hreach,
                resolveAt_inside hn (hget.trans hs) (hreaches.trans hreach)]
              have hkeep : ∀ n, s.Follows n → keep n = true :=
                fun n h => hclosed.of_follows hg hname hs h
              exact expand_congr (fun n h => resolveAt_restrict room _ n (hkeep n h))
                fun n h => description_restrict (hkeep n h)

/-- The entry of a name to keep says the same in the part. -/
theorem entry_restrict {name : String} (hname : keep name = true) {s : Schema}
    (hs : b.schemas.get? name = some s) :
    (b.restrict keep g').entry name s = b.entry name s := by
  have hkeep : ∀ n, s.Follows n → keep n = true := fun n h => hclosed.of_follows hg hname hs h
  have hexpand : expand ((b.restrict keep g').lookup name) s = expand (b.lookup name) s :=
    expand_congr (fun n h => resolveAt_restrict hg hclosed htable hg' _ _ n (hkeep n h))
      fun n h => description_restrict (hkeep n h)
  have hdescribe : describe ((b.restrict keep g').lookup name) s = describe (b.lookup name) s :=
    describe_congr fun n h => description_restrict (hkeep n h)
  unfold entry
  rw [hexpand, hdescribe]

end Building

end ApiTypes
