import ApiTypes.Proofs.Resolution.Naming
import Mathlib.Data.List.Chain

/-! # Paths and cycles of references

The edges of the graph are the references of the declared schemas (`adjacent_iff_refersTo`), so a
name reaches another exactly if references lead from the one to the other, and itself exactly if it
stands on a cycle of references (`reachesAny_iff_leads`).  A path that comes back to where it starts
can be cut short (`exists_simple_path`), so the names on such a cycle may be taken to be distinct.

Main definitions: `RefersTo`. -/

namespace ApiTypes

/-- The first name is declared, and its declaration refers to the second, declared or not. -/
def RefersTo (schemas : Table Schema) (a b : String) : Prop :=
  ∃ s, schemas.get? a = some s ∧ s.RefersTo b

variable {schemas : Table Schema} {g : Graph} {a b : String}

theorem RefersTo.declared (h : RefersTo schemas a b) : schemas.contains a = true := by
  obtain ⟨s, hs, _⟩ := h
  exact Table.contains_of_get? hs

theorem adjacent_iff_refersTo (hg : Graph.ofSchemas schemas = .ok g) :
    g.edges.Adjacent a b ↔ RefersTo schemas a b := by
  unfold Edges.Adjacent
  constructor
  · intro hb
    cases hs : schemas.get? a with
    | none =>
        rw [targets_of_undeclared hg hs] at hb
        cases hb
    | some s => exact ⟨s, hs, _, ofSchemas_targets hg hs, hb⟩
  · rintro ⟨s, hs, found, hfound, hb⟩
    obtain rfl := Except.ok.inj (hfound.symm.trans (ofSchemas_targets hg hs))
    exact hb

theorem reaches_iff_leads (hg : Graph.ofSchemas schemas = .ok g) :
    g.edges.Reaches a b ↔ Relation.TransGen (RefersTo schemas) a b := by
  have hsame : g.edges.Adjacent = RefersTo schemas :=
    funext fun a => funext fun b => propext (adjacent_iff_refersTo hg)
  unfold Edges.Reaches
  rw [hsame]

/-! ### Paths without detours -/

section paths
variable {α : Type} {R : α → α → Prop} {x y : α}

theorem leads_of_path {between : List α} (h : (x :: between ++ [y]).IsChain R) :
    Relation.TransGen R x y := by
  induction between generalizing x with
  | nil => exact .single (List.isChain_cons_cons.mp h).1
  | cons z rest ih =>
      obtain ⟨hxz, hrest⟩ := List.isChain_cons_cons.mp h
      exact .head hxz (ih hrest)

/-- A path that comes back to where it starts can start from there the last time. -/
theorem exists_simple_path (h : Relation.TransGen R x y) :
    ∃ between, (x :: between).Nodup ∧ (x :: between ++ [y]).IsChain R := by
  induction h using Relation.TransGen.head_induction_on with
  | single hxy => exact ⟨[], List.nodup_singleton _, List.isChain_pair.mpr hxy⟩
  | @head x z hxz _ ih =>
      obtain ⟨between, hnodup, hchain⟩ := ih
      by_cases hx : x ∈ z :: between
      · obtain ⟨front, rest, hsplit⟩ := List.append_of_mem hx
        rw [hsplit] at hnodup hchain
        rw [List.append_assoc] at hchain
        exact ⟨rest, hnodup.of_append_right, hchain.right_of_append⟩
      · refine ⟨z :: between, List.nodup_cons.mpr ⟨hx, hnodup⟩, ?_⟩
        exact List.isChain_cons_cons.mpr ⟨hxz, hchain⟩

end paths

/-! ### What is reached -/

/-- A name reaches one of the others exactly if it is declared and references lead on from it to one
of them, along one reference or more.  It reaches itself exactly if it stands on a cycle: from the
name along distinct ones, each of which refers to the next and the last to the name. -/
theorem reachesAny_iff_leads (hg : Graph.ofSchemas schemas = .ok g) (name : String)
    (others : List String) :
    (g.reachesAny name others = true ↔ schemas.contains name = true ∧
      ∃ o ∈ others, Relation.TransGen (RefersTo schemas) name o) ∧
    (g.reachesAny name [name] = true ↔ ∃ between, (name :: between).Nodup ∧
      (name :: between ++ [name]).IsChain (RefersTo schemas)) := by
  have hreaches : ∀ others : List String, g.reachesAny name others = true ↔
      ∃ o ∈ others, Relation.TransGen (RefersTo schemas) name o := by
    intro others
    rw [reachesAny_eq_true_iff hg]
    exact exists_congr fun o => and_congr_right fun _ => reaches_iff_leads hg
  constructor
  · rw [hreaches, iff_and_self]
    rintro ⟨o, _, hlead⟩
    obtain ⟨_, hfirst, _⟩ := Relation.TransGen.head'_iff.mp hlead
    exact hfirst.declared
  · rw [hreaches]
    constructor
    · rintro ⟨o, ho, hlead⟩
      obtain rfl := List.mem_singleton.mp ho
      exact exists_simple_path hlead
    · rintro ⟨between, _, hchain⟩
      exact ⟨name, List.mem_singleton_self name, leads_of_path hchain⟩

/-- A nest of layers, each with nests in it and an egg, which nothing declares; and a bird, which is
a nest before it is a bird. -/
def nest : Table Schema := Table.ofList [
  ("Nest", .inline {
    properties := [("first", .ref "#/schemas/Layer"), ("rest", .ref "#/schemas/Layer")] }),
  ("Layer", .inline { items := some (.ref "#/schemas/Nest"), allOf := [.ref "#/schemas/Egg"] }),
  ("Bird", .inline { allOf := [.ref "#/schemas/Nest", .ref "#/schemas/Bird"] })]

/-- The bird leads to the egg.  The nest stands on a cycle, and the bird, to which it does not lead,
stands on none. -/
theorem nest_leads : ∃ g, Graph.ofSchemas nest = .ok g ∧
    Relation.TransGen (RefersTo nest) "Bird" "Egg" ∧
    (∃ between, ("Nest" :: between).Nodup ∧
      ("Nest" :: between ++ ["Nest"]).IsChain (RefersTo nest)) ∧
    ¬ Relation.TransGen (RefersTo nest) "Nest" "Bird" ∧
    ¬ (∃ between, ("Bird" :: between).Nodup ∧
      ("Bird" :: between ++ ["Bird"]).IsChain (RefersTo nest)) := by
  have hvalues : ((Graph.ofSchemas nest).toOption.map fun g =>
      (g.reachesAny "Bird" ["Egg"], g.reachesAny "Nest" ["Nest"], g.reachesAny "Nest" ["Bird"],
        g.reachesAny "Bird" ["Bird"])) = some (true, true, false, false) := by decide +kernel
  obtain ⟨g, hg, hvalues⟩ := Option.map_eq_some_iff.mp hvalues
  have hg := toOption_eq_some_iff.mp hg
  obtain ⟨hegg, hnest, hbird, hself⟩ := by simpa only [Prod.mk.injEq] using hvalues
  refine ⟨g, hg, ?_, (reachesAny_iff_leads hg "Nest" []).2.mp hnest, ?_, ?_⟩
  · obtain ⟨o, ho, hlead⟩ := ((reachesAny_iff_leads hg "Bird" ["Egg"]).1.mp hegg).2
    exact List.mem_singleton.mp ho ▸ hlead
  · intro hlead
    have hreach := (reachesAny_iff_leads hg "Nest" ["Bird"]).1.mpr
      ⟨by decide +kernel, "Bird", List.mem_singleton_self _, hlead⟩
    exact absurd (hreach.symm.trans hbird) (by decide)
  · intro hcycle
    have hreach := (reachesAny_iff_leads hg "Bird" []).2.mpr hcycle
    exact absurd (hreach.symm.trans hself) (by decide)

end ApiTypes
