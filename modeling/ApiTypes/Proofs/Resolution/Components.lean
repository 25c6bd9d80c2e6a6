import ApiTypes.Proofs.Resolution.Locality
import ApiTypes.Proofs.Resolution.Watching

/-! # Components

Expansion never leaves the component of the name it starts from: a name is put on the way only if it
leads back to one that is already there.  So the paths on which references are met stay inside one
component (`Visits.onWay`), and where that has no more names than a path may have, there is always
room for one more: nothing is cut short but what leads back to a name on the way
(`visits_along_component`).

Main definitions: `component`, `OnWay`, `Building.Uncut`. -/

namespace ApiTypes

/-- The declared names that the name leads to and that lead back to it, itself among them. -/
def component (schemas : Table Schema) (g : Graph) (x : String) : List String :=
  schemas.keys.filter fun y => g.near x y && g.near y x

section
variable {schemas : Table Schema} {g : Graph} {x y : String}

theorem mem_component_iff (hy : schemas.contains y = true) : y ∈ component schemas g x ↔
    Relation.ReflTransGen g.edges.Adjacent x y ∧ Relation.ReflTransGen g.edges.Adjacent y x := by
  unfold component
  rw [List.mem_filter, Bool.and_eq_true, Graph.near_iff, Graph.near_iff]
  exact and_iff_right (Table.contains_iff_mem_keys.mp hy)

theorem reaches_of_mem_component (h : y ∈ component schemas g x) :
    Relation.ReflTransGen g.edges.Adjacent y x := by
  unfold component at h
  rw [List.mem_filter, Bool.and_eq_true, Graph.near_iff, Graph.near_iff] at h
  exact h.2.2

variable {path : List String} {name : String} (hg : Graph.ofSchemas schemas = .ok g)

include hg in
/-- A declared name that is reached and leads back to a path inside the component is in it. -/
theorem mem_component_of_reachesAny (hname : schemas.contains name = true)
    (hreach : g.edges.Reaches x name) (hpath : path ⊆ component schemas g x)
    (hback : g.reachesAny name path = true) : name ∈ component schemas g x := by
  obtain ⟨o, ho, hno⟩ := (reachesAny_eq_true_iff hg).mp hback
  have hox := reaches_of_mem_component (hpath ho)
  exact (mem_component_iff hname).mpr ⟨hreach.to_reflTransGen, hno.to_reflTransGen.trans hox⟩

/-! ### Paths on the way -/

variable (schemas g x) in
/-- A path of distinct names from the first one on, inside its component and no longer than allowed. -/
structure OnWay (path : List String) : Prop where
  head : path.head? = some x
  nodup : path.Nodup
  length_le : path.length ≤ maxInlineDepth
  subset : path ⊆ component schemas g x

theorem OnWay.singleton (hx : schemas.contains x = true) : OnWay schemas g x [x] where
  head := rfl
  nodup := List.nodup_singleton x
  length_le := Nat.succ_le_of_lt (by decide : 0 < maxInlineDepth)
  subset := by simpa using (mem_component_iff hx).mpr ⟨.refl, .refl⟩

theorem OnWay.append (h : OnWay schemas g x path) (hn : name ∉ path)
    (hlt : path.length < maxInlineDepth) (hname : name ∈ component schemas g x) :
    OnWay schemas g x (path ++ [name]) where
  head := by rw [List.head?_append, h.head, Option.some_or]
  nodup := by
    rw [← List.concat_eq_append]
    exact h.nodup.concat hn
  length_le := by
    rw [List.length_append, List.length_singleton]
    exact hlt
  subset := List.append_subset.mpr ⟨h.subset, by simpa using hname⟩

/-- Where a name of the component is not on the way, the way does not fill the component. -/
theorem OnWay.length_lt (h : OnWay schemas g x path) (hn : name ∉ path)
    (hname : name ∈ component schemas g x) : path.length < (component schemas g x).length :=
  (List.subperm_of_subset (List.nodup_cons.mpr ⟨hn, h.nodup⟩)
    (List.cons_subset.mpr ⟨hname, h.subset⟩)).length_le

include hg in
/-- From a path on the way, expansion stays on the way. -/
theorem Visits.onWay {q : List String} {s : Schema} (hv : Visits schemas g path s q name)
    (hpath : OnWay schemas g x path)
    (hs : ∃ found, s.references = .ok found ∧ ∀ n ∈ found, g.edges.Reaches x n) :
    OnWay schemas g x q ∧ g.edges.Reaches x name := by
  refine Visits.along hg ?_ hv hpath hs
  intro path target hpath hlt hn hc hreach hback
  exact hpath.append hn hlt (mem_component_of_reachesAny hg hc hreach hpath.subset hback)

end

/-! ### What is cut -/

/-- What a name becomes on the way along the path is not a record for want of room: it is not
declared, it is looked up, or its declaration is expanded in its place. -/
inductive Building.Uncut (b : Building) (room : Nat) (path : List String) (name : String) : Prop
  | undeclared : b.schemas.get? name = none →
      b.resolveAt room path name = .ok { type := .pending name } → Uncut b room path name
  | lookedUp : b.schemas.contains name = true → b.graph.reachesAny name path = false →
      b.resolveAt room path name = .ok (b.lookUp name) → Uncut b room path name
  | inside {rest : Nat} {s : Schema} : room = rest + 1 → b.schemas.get? name = some s →
      b.resolveAt room path name =
        expand ⟨b.resolveAt rest (path ++ [name]), b.description⟩ s → Uncut b room path name

/-- Away from the path, a name is cut only where there is no room. -/
theorem Building.uncut_of_room {b : Building} {room : Nat} {path : List String} {name : String}
    (hn : name ∉ path) (hroom : b.schemas.contains name = true →
      b.graph.reachesAny name path = true → 0 < room) : b.Uncut room path name := by
  cases hs : b.schemas.get? name with
  | none => exact .undeclared hs (resolveAt_undeclared hn hs)
  | some s =>
      have hc := Table.contains_of_get? hs
      cases hback : b.graph.reachesAny name path with
      | false => exact .lookedUp hc hback (resolveAt_apart hn hs hback)
      | true =>
          obtain ⟨rest, rfl⟩ : ∃ rest, room = rest + 1 :=
            ⟨room - 1, (Nat.sub_add_cancel (hroom hc hback)).symm⟩
          exact .inside rfl hs (resolveAt_inside hn hs hback)

/-- The entry of a name is expanded along paths of distinct names inside the component of the name,
which begin with it and are no longer than allowed.  Where the component is no larger than that, there
is room for every declared name that leads back to a path, and a reference is cut only where its name
is on the way.  The references that are met are those that `Visits` tells of: whatever the table holds,
watching the expansion makes no difference exactly if all of them pass the test. -/
theorem visits_along_component {schemas : Table Schema} {r : Resolution}
    (h : resolveSchemas schemas = .ok r) : ∃ g, Graph.ofSchemas schemas = .ok g ∧
    ∀ x s, schemas.get? x = some s →
      (∀ (table : Table ResolvedSchema) (test : List String → String → Bool),
        expand (Building.watched ⟨schemas, g, table⟩ test x) s =
            expand (Building.lookup ⟨schemas, g, table⟩ x) s ↔
          ∀ q name, Visits schemas g [x] s q name → test q name = true) ∧
      (∀ q name, Visits schemas g [x] s q name → OnWay schemas g x q) ∧
      ((component schemas g x).length ≤ maxInlineDepth →
        ∀ q name, Visits schemas g [x] s q name →
          (name ∉ q → schemas.contains name = true → g.reachesAny name q = true →
            q.length < maxInlineDepth) ∧
          ∀ table : Table ResolvedSchema, name ∈ q ∨
            Building.Uncut ⟨schemas, g, table⟩ (maxInlineDepth - q.length) q name) := by
  obtain ⟨g, hg⟩ := ofSchemas_of_resolveSchemas h
  refine ⟨g, hg, ?_⟩
  intro x s hs
  have hstart : OnWay schemas g x [x] := .singleton (Table.contains_of_get? hs)
  have hrefs : ∃ found, s.references = .ok found ∧ ∀ n ∈ found, g.edges.Reaches x n :=
    ⟨_, ofSchemas_targets hg hs, fun n hn => Relation.TransGen.single hn⟩
  have room : (component schemas g x).length ≤ maxInlineDepth →
      ∀ q name, Visits schemas g [x] s q name → name ∉ q → schemas.contains name = true →
        g.reachesAny name q = true → q.length < maxInlineDepth := by
    intro hsize q name hv hn hc hback
    obtain ⟨hway, hreach⟩ := hv.onWay hg hstart hrefs
    have hmem := mem_component_of_reachesAny hg hc hreach hway.subset hback
    exact (hway.length_lt hn hmem).trans_le hsize
  refine ⟨fun table test => Building.watched_eq_iff hg hs, ?_, ?_⟩
  · intro q name hv
    exact (hv.onWay hg hstart hrefs).1
  · intro hsize q name hv
    refine ⟨room hsize q name hv, ?_⟩
    intro table
    by_cases hn : name ∈ q
    · exact Or.inl hn
    · refine Or.inr (Building.uncut_of_room hn ?_)
      intro hc hback
      exact Nat.sub_pos_of_lt (room hsize q name hv hn hc hback)

/-- The schema of the parent in the family. -/
def parentSchema : Schema := .inline { properties := [("child", .ref "#/schemas/Child")] }

/-- The schema of the child in the family. -/
def childSchema : Schema := .inline {
  properties := [("parent", .ref "#/schemas/Parent"), ("name", .ref "#/schemas/Name")] }

/-- On the way through the parent and the child the parent is met again, and the name, which is not
cut. -/
theorem family_on_way : ∃ r, resolveSchemas family = .ok r ∧
    family.get? "Parent" = some parentSchema ∧
    component family familyGraph "Parent" = ["Parent", "Child"] ∧
    Visits family familyGraph ["Parent"] parentSchema ["Parent", "Child"] "Parent" ∧
    Visits family familyGraph ["Parent"] parentSchema ["Parent", "Child"] "Name" ∧
    OnWay family familyGraph "Parent" ["Parent", "Child"] ∧
    ∀ table : Table ResolvedSchema,
      Building.Uncut ⟨family, familyGraph, table⟩ (maxInlineDepth - 2) ["Parent", "Child"] "Name" := by
  obtain ⟨r, hr, _⟩ := resolveSchemas_stage (show Graph.ofSchemas family = .ok familyGraph from rfl)
  obtain ⟨g, hg, hvisits⟩ := visits_along_component hr
  obtain rfl : familyGraph = g := Except.ok.inj hg
  obtain ⟨_, hway, huncut⟩ := hvisits "Parent" parentSchema rfl
  have hcomponent : component family familyGraph "Parent" = ["Parent", "Child"] := by decide +kernel
  have hsize : (component family familyGraph "Parent").length ≤ maxInlineDepth := by
    rw [hcomponent]
    decide
  have inChild : ∀ {name}, childSchema.Follows name →
      Visits family familyGraph ["Parent"] parentSchema ["Parent", "Child"] name := by
    intro name hname
    exact .part List.mem_cons_self
      (.inside rfl (by decide) rfl (by decide +kernel) (by decide) (hname.visits _))
  have hback := @inChild "Parent" (.part List.mem_cons_self (.ref rfl))
  have hname := @inChild "Name" (.part (List.mem_cons_of_mem _ List.mem_cons_self) (.ref rfl))
  refine ⟨r, hr, rfl, hcomponent, hback, hname, hway _ _ hback, ?_⟩
  intro table
  rcases (huncut hsize _ _ hname).2 table with hn | huncut
  · exact absurd hn (by decide)
  · exact huncut

end ApiTypes
