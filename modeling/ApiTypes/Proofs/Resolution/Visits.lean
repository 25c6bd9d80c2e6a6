import ApiTypes.Proofs.Resolution.Followed
import ApiTypes.Proofs.Resolution.Reachability
import ApiTypes.Proofs.Tables
import ApiTypes.Resolution.Schemas
import Mathlib.Data.Finset.Card

/-! # References met while an entry is expanded

Expanding a schema on the way along a path of names meets references; inside a cycle it goes on in
the schema referred to, with a longer path.  `Visits` says which references are met and along which
paths, and `LooksUp` which names an entry asks the table for: those declared apart from the path and
from everything that leads back to it.

Main statements: `reachesAny_eq_true_iff` and `ofSchemas_targets` (the graph of named schemas),
`LooksUp.reaches` and `LooksUp.not_reaches` (what is looked up does not lead back), and from these
`LooksUp.rank_lt`: looking up goes down a rank, so every chain of lookups ends. -/

namespace ApiTypes

/-! ### The graph of named schemas -/

section graph
variable {schemas : Table Schema} {g : Graph}

theorem ofSchemas_ok (hg : Graph.ofSchemas schemas = .ok g) : g = Graph.ofEdges g.edges ∧
    List.Forall₂ (fun e t => t.1 = e.1 ∧ e.2.references = .ok t.2) schemas.entries g.edges := by
  unfold Graph.ofSchemas at hg
  obtain ⟨edges, hedges, hg⟩ := bind_eq_ok.mp hg
  obtain rfl := Except.ok.inj hg
  refine ⟨rfl, (mapM_eq_ok_iff.mp hedges).imp ?_⟩
  intro e t ht
  obtain ⟨targets, htargets, ht⟩ := bind_eq_ok.mp ht
  obtain rfl := Except.ok.inj ht
  exact ⟨rfl, htargets⟩

/-- A declared name has an edge to each reference of its schema. -/
theorem ofSchemas_targets (hg : Graph.ofSchemas schemas = .ok g) {name : String} {s : Schema}
    (hs : schemas.get? name = some s) : s.references = .ok (g.edges.targets name) := by
  have h := (ofSchemas_ok hg).2
  unfold Table.get? at hs
  unfold Edges.targets
  generalize schemas.entries = entries at h hs
  generalize g.edges = edges at h
  induction h with
  | nil => cases hs
  | @cons e t entries edges het _ ih =>
      rw [List.lookup_cons, het.1]
      rw [List.lookup_cons] at hs
      cases hn : name == e.1 with
      | true =>
          rw [hn] at hs
          obtain rfl := Option.some.inj hs
          exact het.2
      | false =>
          rw [hn] at hs
          exact ih hs

theorem exists_ofSchemas (h : ∀ name s, schemas.get? name = some s →
    ∃ found, s.references = .ok found) : ∃ g, Graph.ofSchemas schemas = .ok g := by
  unfold Graph.ofSchemas
  obtain ⟨edges, hedges⟩ : ∃ edges,
      (schemas.entries.mapM fun e => do return (e.1, ← e.2.references)) = .ok edges := by
    apply exists_mapM_eq_ok
    intro e he
    obtain ⟨found, hfound⟩ := h e.1 e.2 (Table.get?_of_mem he)
    exact ⟨(e.1, found), bind_eq_ok.mpr ⟨found, hfound, rfl⟩⟩
  exact ⟨Graph.ofEdges edges, bind_eq_ok.mpr ⟨edges, hedges, rfl⟩⟩

theorem reachesAny_eq_true_iff (hg : Graph.ofSchemas schemas = .ok g) {name : String}
    {others : List String} :
    g.reachesAny name others = true ↔ ∃ o ∈ others, g.edges.Reaches name o := by
  rw [(ofSchemas_ok hg).1]
  exact Graph.reachesAny_iff g.edges name others

theorem contains_of_reaches (hg : Graph.ofSchemas schemas = .ok g) {a b : String}
    (h : g.edges.Reaches a b) : schemas.contains a = true := by
  have hkeys : schemas.keys = g.edges.map Prod.fst := by
    have hf := (ofSchemas_ok hg).2
    unfold Table.keys
    generalize schemas.entries = entries at hf
    generalize g.edges = edges at hf
    induction hf with
    | nil => rfl
    | cons het _ ih => rw [List.map_cons, List.map_cons, ih, het.1]
  rw [Table.contains_iff_mem_keys, hkeys]
  exact Graph.mem_of_reaches g.edges h

end graph

/-! ### Visits and lookups -/

variable (schemas : Table Schema) (g : Graph)

/-- Expanding the schema on the way along the first path meets a reference to the name on the way
along the second. -/
inductive Visits : List String → Schema → List String → String → Prop
  | here {path : List String} {ref name : String} :
      refName ref = .ok name → Visits path (.ref ref) path name
  | part {path q : List String} {shape : Shape} {s : Schema} {name : String} :
      s ∈ shape.parts → Visits path s q name → Visits path (.inline shape) q name
  | inside {path q : List String} {ref target name : String} {s : Schema} :
      refName ref = .ok target → target ∉ path → schemas.get? target = some s →
      g.reachesAny target path = true → path.length < maxInlineDepth →
      Visits (path ++ [target]) s q name → Visits path (.ref ref) q name

/-- Expanding the schema on the way along the path asks the table for the name. -/
def LooksUpFrom (path : List String) (s : Schema) (name : String) : Prop :=
  ∃ q, Visits schemas g path s q name ∧ name ∉ q ∧ schemas.contains name = true ∧
    g.reachesAny name q = false

/-- The entry of the first name asks the table for the second. -/
def LooksUp (x y : String) : Prop :=
  ∃ s, schemas.get? x = some s ∧ LooksUpFrom schemas g [x] s y

variable {schemas g}

theorem Schema.Follows.visits {s : Schema} {name : String} (h : s.Follows name)
    (path : List String) : Visits schemas g path s path name := by
  induction h with
  | ref href => exact .here href
  | part hs _ ih => exact .part hs ih

/-- What is met in the schema of a name that is followed and expanded in place is met on the way. -/
theorem Schema.Follows.visits_inside {s t : Schema} {target : String} (h : s.Follows target)
    {path q : List String} {name : String} (hn : target ∉ path) (ht : schemas.get? target = some t)
    (hback : g.reachesAny target path = true) (hlt : path.length < maxInlineDepth)
    (hv : Visits schemas g (path ++ [target]) t q name) : Visits schemas g path s q name := by
  induction h with
  | ref href => exact .inside href hn ht hback hlt hv
  | part hs _ ih => exact .part hs (ih hn ht hback hv)

theorem looksUpFrom_inline_iff {path : List String} {shape : Shape} {name : String} :
    LooksUpFrom schemas g path (.inline shape) name ↔
      ∃ s ∈ shape.parts, LooksUpFrom schemas g path s name := by
  constructor
  · rintro ⟨q, hv, h⟩
    cases hv with
    | part hs hv => exact ⟨_, hs, q, hv, h⟩
  · rintro ⟨s, hs, q, hv, h⟩
    exact ⟨q, .part hs hv, h⟩

section ref
variable {path : List String} {ref target name : String} (href : refName ref = .ok target)
include href

theorem not_looksUpFrom_of_mem (h : target ∈ path) :
    ¬ LooksUpFrom schemas g path (.ref ref) name := by
  rintro ⟨q, hv, hq, _⟩
  cases hv with
  | here hr =>
      obtain rfl := Except.ok.inj (href.symm.trans hr)
      exact hq h
  | inside hr hn _ _ _ _ =>
      obtain rfl := Except.ok.inj (href.symm.trans hr)
      exact hn h

theorem not_looksUpFrom_of_undeclared (h : schemas.get? target = none) :
    ¬ LooksUpFrom schemas g path (.ref ref) name := by
  rintro ⟨q, hv, _, hc, _⟩
  cases hv with
  | here hr =>
      obtain rfl := Except.ok.inj (href.symm.trans hr)
      simp [Table.contains, h] at hc
  | inside hr _ hs _ _ _ =>
      obtain rfl := Except.ok.inj (href.symm.trans hr)
      rw [h] at hs
      cases hs

theorem looksUpFrom_apart_iff (hn : target ∉ path) {s : Schema} (hs : schemas.get? target = some s)
    (h : g.reachesAny target path = false) :
    LooksUpFrom schemas g path (.ref ref) name ↔ name = target := by
  constructor
  · rintro ⟨q, hv, _⟩
    cases hv with
    | here hr => exact (Except.ok.inj (href.symm.trans hr)).symm
    | inside hr _ _ hreach _ _ =>
        obtain rfl := Except.ok.inj (href.symm.trans hr)
        rw [h] at hreach
        cases hreach
  · rintro rfl
    exact ⟨path, .here href, hn, Table.contains_of_get? hs, h⟩

theorem not_looksUpFrom_of_deep (h : g.reachesAny target path = true)
    (hdeep : maxInlineDepth ≤ path.length) : ¬ LooksUpFrom schemas g path (.ref ref) name := by
  rintro ⟨q, hv, _, _, hq⟩
  cases hv with
  | here hr =>
      obtain rfl := Except.ok.inj (href.symm.trans hr)
      rw [h] at hq
      cases hq
  | inside _ _ _ _ hlt _ => omega

theorem looksUpFrom_inside_iff (hn : target ∉ path) {s : Schema} (hs : schemas.get? target = some s)
    (h : g.reachesAny target path = true) (hlt : path.length < maxInlineDepth) :
    LooksUpFrom schemas g path (.ref ref) name ↔
      LooksUpFrom schemas g (path ++ [target]) s name := by
  constructor
  · rintro ⟨q, hv, hq⟩
    cases hv with
    | here hr =>
        obtain rfl := Except.ok.inj (href.symm.trans hr)
        rw [h] at hq
        cases hq.2.2
    | inside hr _ hs' _ _ hv =>
        obtain rfl := Except.ok.inj (href.symm.trans hr)
        obtain rfl := Option.some.inj (hs.symm.trans hs')
        exact ⟨q, hv, hq⟩
  · rintro ⟨q, hv, hq⟩
    exact ⟨q, .inside href hn hs h hlt hv, hq⟩

end ref

theorem LooksUp.declared {x y : String} (h : LooksUp schemas g x y) :
    schemas.contains y = true := by
  obtain ⟨_, _, _, _, _, hc, _⟩ := h
  exact hc

/-! ### Lookups lead down -/

section descent
variable (hg : Graph.ofSchemas schemas = .ok g)
include hg

/-- What is met on the way of a name is reached from it, and the path there has what every path has
that grows as long as there is room by declared names that are reached and lead back to it. -/
theorem Visits.along {P : List String → Prop} {x : String}
    (push : ∀ path target, P path → path.length < maxInlineDepth → target ∉ path →
      schemas.contains target = true → g.edges.Reaches x target →
      g.reachesAny target path = true → P (path ++ [target]))
    {path q : List String} {s : Schema} {name : String} (hv : Visits schemas g path s q name)
    (hpath : P path) (hs : ∃ found, s.references = .ok found ∧ ∀ n ∈ found, g.edges.Reaches x n) :
    P q ∧ g.edges.Reaches x name := by
  induction hv with
  | here href =>
      obtain ⟨found, hfound, hreach⟩ := hs
      obtain ⟨n, hn, rfl⟩ := refName_of_references hfound
      obtain rfl := Except.ok.inj (href.symm.trans hn)
      exact ⟨hpath, hreach _ List.mem_cons_self⟩
  | part hmem _ ih =>
      obtain ⟨found, hfound, hreach⟩ := hs
      obtain ⟨ofPart, hpart, hsub⟩ := references_part hfound hmem
      exact ih hpath ⟨ofPart, hpart, fun n hn => hreach n (hsub hn)⟩
  | inside href hn htarget hback hlt _ ih =>
      obtain ⟨found, hfound, hreach⟩ := hs
      obtain ⟨n, hname, rfl⟩ := refName_of_references hfound
      obtain rfl := Except.ok.inj (href.symm.trans hname)
      have hx := hreach _ List.mem_cons_self
      refine ih (push _ _ hpath hlt hn (Table.contains_of_get? htarget) hx hback)
        ⟨_, ofSchemas_targets hg htarget, ?_⟩
      exact fun n hn => Relation.TransGen.tail hx hn

/-- What is met on the way of a name is reached from it, and the name stays on the path. -/
theorem Visits.reaches {x : String} {path q : List String} {s : Schema} {name : String}
    (hv : Visits schemas g path s q name) (hx : x ∈ path)
    (hs : ∃ found, s.references = .ok found ∧ ∀ n ∈ found, g.edges.Reaches x n) :
    x ∈ q ∧ g.edges.Reaches x name :=
  Visits.along hg (P := (x ∈ ·)) (fun _ _ hx _ _ _ _ _ => List.mem_append_left _ hx) hv hx hs

/-- An entry looks up what its name reaches, never itself, and nothing that leads back to it. -/
theorem LooksUp.reaches {x y : String} (h : LooksUp schemas g x y) :
    g.edges.Reaches x y ∧ y ≠ x ∧ ¬ g.edges.Reaches y x := by
  obtain ⟨s, hs, q, hv, hq, _, hback⟩ := h
  obtain ⟨hx, hreach⟩ := hv.reaches hg List.mem_cons_self
    ⟨_, ofSchemas_targets hg hs, fun n hn => Relation.TransGen.single hn⟩
  refine ⟨hreach, fun e => hq (e ▸ hx), ?_⟩
  intro hyx
  rw [(reachesAny_eq_true_iff hg).mpr ⟨x, hx, hyx⟩] at hback
  cases hback

end descent

variable (schemas g) in
/-- The number of declared names that a name is or reaches. -/
def rank (x : String) : Nat :=
  (schemas.keys.toFinset.filter fun k => k = x ∨ k ∈ Graph.reachable g.edges x).card

theorem rank_le_size (x : String) : rank schemas g x ≤ schemas.size := by
  have hlen : schemas.keys.length = schemas.size := List.length_map _
  exact (Finset.card_filter_le _ _).trans ((List.toFinset_card_le _).trans hlen.le)

theorem LooksUp.rank_lt (hg : Graph.ofSchemas schemas = .ok g) {x y : String}
    (h : LooksUp schemas g x y) : rank schemas g y < rank schemas g x := by
  obtain ⟨hxy, hne, hyx⟩ := h.reaches hg
  apply Finset.card_lt_card
  rw [Finset.ssubset_iff_of_subset]
  · refine ⟨x, ?_, ?_⟩
    · have hx : x ∈ schemas.keys := Table.contains_iff_mem_keys.mp (contains_of_reaches hg hxy)
      simp [hx]
    · rw [Finset.mem_filter, Graph.mem_reachable_iff]
      rintro ⟨_, h | h⟩
      · exact hne h.symm
      · exact hyx h
  · intro k hk
    rw [Finset.mem_filter, Graph.mem_reachable_iff] at hk ⊢
    refine ⟨hk.1, Or.inr ?_⟩
    rcases hk.2 with rfl | hk
    · exact hxy
    · exact Relation.TransGen.trans hxy hk

theorem rank_pos {x : String} (h : schemas.contains x = true) : 0 < rank schemas g x := by
  have hx : x ∈ schemas.keys := Table.contains_iff_mem_keys.mp h
  exact Finset.card_pos.mpr ⟨x, by simp [hx]⟩

end ApiTypes
