import ApiTypes.Proofs.Resolution.Locality
import Mathlib.Algebra.BigOperators.Group.Finset.Basic

/-! # Nesting

An entry is made of what is expanded in its place and of entries that are looked up, which may be of
earlier passes.  `Expands` tells both apart, and all declarations inside of which something is
expanded: none is expanded inside itself, because what is looked up leads back to nothing on the way.
So an entry is nested no deeper than what is written in the declarations that its name reaches, taken
together (`nesting_le`).

Main definitions: `Descriptor.depth`, `Schema.depth`, `Expands`. -/

namespace ApiTypes

/-! ### Depths -/

mutual
/-- How deep a descriptor is nested: one more than what is inside. -/
def Descriptor.depth : Descriptor → Nat
  | .array item => item.depth + 1
  | .object fields => depthOfFields fields + 1
  | .primitive _ | .enumeration .. | .record | .any | .pending _ => 1

/-- How deep the type of a field is nested. -/
def depthOfField : Field → Nat
  | ⟨_, type, _, _, _, _⟩ => type.depth

/-- How deep the types of fields are nested. -/
def depthOfFields : List Field → Nat
  | [] => 0
  | f :: rest => max (depthOfField f) (depthOfFields rest)
end

mutual
/-- How deep a schema is written: one more than what is inside, and nothing for a reference. -/
def Schema.depth : Schema → Nat
  | .ref _ => 0
  | .inline shape => shape.depth

/-- How deep the keywords of a schema are written. -/
def Shape.depth : Shape → Nat
  | ⟨_, _, _, properties, _, items, allOf, oneOf, anyOf, _⟩ =>
    max (depthOfProperties properties) (max (depthOfOption items)
      (max (depthOfAll allOf) (max (depthOfAll oneOf) (depthOfAll anyOf)))) + 1

/-- How deep the schemas of properties are written. -/
def depthOfProperties : List (String × Schema) → Nat
  | [] => 0
  | (_, s) :: rest => max s.depth (depthOfProperties rest)

/-- How deep a schema is written, where there is one. -/
def depthOfOption : Option Schema → Nat
  | none => 0
  | some s => s.depth

/-- How deep schemas are written. -/
def depthOfAll : List Schema → Nat
  | [] => 0
  | s :: rest => max s.depth (depthOfAll rest)
end

theorem depthOfFields_le {n : Nat} : ∀ {fields : List Field},
    (∀ f ∈ fields, f.type.depth ≤ n) → depthOfFields fields ≤ n
  | [], _ => Nat.zero_le n
  | f :: rest, h => by
      have hf : f.type.depth ≤ n := h f List.mem_cons_self
      have hrest := depthOfFields_le fun f' hf' => h f' (List.mem_cons_of_mem f hf')
      cases f
      exact Nat.max_le.mpr ⟨hf, hrest⟩

theorem le_depthOfProperties : ∀ {properties : List (String × Schema)} {p : String × Schema},
    p ∈ properties → p.2.depth ≤ depthOfProperties properties
  | (_, s) :: rest, p, hp => by
      rw [depthOfProperties]
      rcases List.mem_cons.mp hp with rfl | hp
      · exact Nat.le_max_left _ _
      · exact (le_depthOfProperties hp).trans (Nat.le_max_right _ _)

theorem le_depthOfAll : ∀ {l : List Schema} {s : Schema}, s ∈ l → s.depth ≤ depthOfAll l
  | s :: rest, t, ht => by
      rw [depthOfAll]
      rcases List.mem_cons.mp ht with rfl | ht
      · exact Nat.le_max_left _ _
      · exact (le_depthOfAll ht).trans (Nat.le_max_right _ _)

theorem Shape.depth_of_mem_parts {shape : Shape} {s : Schema} (h : s ∈ shape.parts) :
    s.depth + 1 ≤ (Schema.inline shape).depth := by
  have hmem := mem_of_mem_parts h
  obtain ⟨type, description, default, properties, required, items, allOf, oneOf, anyOf, enum⟩ := shape
  rw [Schema.depth, Shape.depth]
  apply Nat.succ_le_succ
  rcases hmem with ⟨p, hp, rfl⟩ | hs | hs
  · have hp : p.2.depth ≤ depthOfProperties properties := le_depthOfProperties hp
    omega
  · obtain rfl : items = some s := hs
    rw [depthOfOption]
    omega
  · have hs : s.depth ≤ depthOfAll allOf := le_depthOfAll hs
    omega

theorem Shape.depth_pos (shape : Shape) : 1 ≤ (Schema.inline shape).depth := by
  cases shape
  exact Nat.succ_le_succ (Nat.zero_le _)

theorem depth_asObject (d : Descriptor) : d.asObject.depth = d.depth := by
  cases d <;> rfl

/-- What is assembled of parts is nested deeper than the shape is written by no more than the parts
are, if they may be one deeper. -/
theorem depth_assemble_le {shape : Shape} (about : Schema → Option String)
    {type : Schema → Descriptor} {n : Nat} (hn : 1 ≤ n)
    (h : ∀ s ∈ shape.parts, (type s).depth ≤ s.depth + n) :
    (shape.assemble about type).depth ≤ (Schema.inline shape).depth + n := by
  have hpos := shape.depth_pos
  have hpart : ∀ s ∈ shape.parts, (type s).depth + 1 ≤ (Schema.inline shape).depth + n := by
    intro s hs
    have := h s hs
    have := Shape.depth_of_mem_parts hs
    omega
  have hleaf : 1 ≤ (Schema.inline shape).depth + n := by omega
  unfold Shape.parts at hpart
  unfold Shape.assemble
  cases hform : shape.form with
  | object =>
      rw [hform] at hpart
      have hfields : depthOfFields (shape.properties.map fun p =>
          { key := p.1, type := type p.2, description := about p.2,
            required := shape.required.contains p.1, default := p.2.default? }) ≤
          (Schema.inline shape).depth + n - 1 := by
        apply depthOfFields_le
        intro f hf
        obtain ⟨p, hp, rfl⟩ := List.mem_map.mp hf
        exact Nat.le_sub_one_of_lt (hpart p.2 (List.mem_map_of_mem hp))
      exact (Nat.succ_le_succ hfields).trans (Nat.sub_add_cancel hleaf).le
  | extension =>
      rw [hform] at hpart
      cases hfirst : shape.allOf.head? with
      | none => exact hleaf
      | some first =>
          dsimp only
          rw [depth_asObject]
          exact Nat.le_of_succ_le (hpart first (by simp [hfirst]))
  | array =>
      rw [hform] at hpart
      cases hitems : shape.items with
      | none => exact Nat.add_le_add hpos hn
      | some item => exact hpart item (by simp [hitems])
  | firstPart =>
      rw [hform] at hpart
      cases hfirst : shape.allOf.head? with
      | none => exact hleaf
      | some first => exact Nat.le_of_succ_le (hpart first (by simp [hfirst]))
  | enumeration base => exact hleaf
  | primitive p => exact hleaf
  | record => exact hleaf
  | any => exact hleaf

/-! ### What is expanded inside what -/

/-- On the way along the path, and inside the declarations of the names above, the schema becomes the
descriptor.  A declaration is expanded, in its place or for the entry that is looked up, only where
it is not one of those above. -/
inductive Expands (schemas : Table Schema) (g : Graph) :
    (above path : List String) → Schema → Descriptor → Prop
  | inline {above path : List String} {shape : Shape} (about : Schema → Option String)
      (type : Schema → Descriptor) : (∀ s ∈ shape.parts, Expands schemas g above path s (type s)) →
      Expands schemas g above path (.inline shape) (shape.assemble about type)
  | back {above path : List String} {ref name : String} :
      refName ref = .ok name → name ∈ path → Expands schemas g above path (.ref ref) .record
  | undeclared {above path : List String} {ref name : String} :
      refName ref = .ok name → schemas.get? name = none →
      Expands schemas g above path (.ref ref) (.pending name)
  | deep {above path : List String} {ref name : String} :
      refName ref = .ok name → g.reachesAny name path = true → path.length = maxInlineDepth →
      Expands schemas g above path (.ref ref) .record
  | inside {above path : List String} {ref name : String} {s : Schema} {d : Descriptor} :
      refName ref = .ok name → name ∉ above → schemas.get? name = some s →
      g.reachesAny name path = true → Expands schemas g (above ++ [name]) (path ++ [name]) s d →
      Expands schemas g above path (.ref ref) d
  /-- There was no entry yet. -/
  | early {above path : List String} {ref name : String} :
      refName ref = .ok name → schemas.contains name = true → g.reachesAny name path = false →
      Expands schemas g above path (.ref ref) (.pending name)
  /-- The entry that is looked up starts on a path of its own. -/
  | apart {above path : List String} {ref name : String} {s : Schema} {d : Descriptor} :
      refName ref = .ok name → name ∉ above → schemas.get? name = some s →
      g.reachesAny name path = false → Expands schemas g (above ++ [name]) [name] s d →
      Expands schemas g above path (.ref ref) d

section
variable {schemas : Table Schema} {g : Graph} (hg : Graph.ofSchemas schemas = .ok g)
  {keep : String → Bool} (hclosed : g.edges.Closed keep) {above path : List String} {s : Schema}
  {d : Descriptor}
include hg hclosed

/-- What is expanded may as well be inside further declarations, if it does not lead to them. -/
theorem Expands.prepend {further : List String} (hfurther : ∀ n ∈ further, keep n = false)
    (h : Expands schemas g above path s d) (hs : ∀ n, s.Follows n → keep n = true) :
    Expands schemas g (further ++ above) path s d := by
  have fresh : ∀ {name : String} {above : List String}, keep name = true → name ∉ above →
      name ∉ further ++ above := by
    intro name above hname hn hmem
    rcases List.mem_append.mp hmem with hmem | hmem
    · rw [hfurther name hmem] at hname
      cases hname
    · exact hn hmem
  induction h with
  | inline about type _ ih =>
      exact .inline about type fun s hmem => ih s hmem fun n hn => hs n (.part hmem hn)
  | back href hn => exact .back href hn
  | undeclared href hn => exact .undeclared href hn
  | deep href hback hlen => exact .deep href hback hlen
  | early href hc hback => exact .early href hc hback
  | inside href hn ht hback _ ih =>
      have hname := hs _ (.ref href)
      have ih := ih fun n hfollows => hclosed.of_follows hg hname ht hfollows
      rw [← List.append_assoc] at ih
      exact .inside href (fresh hname hn) ht hback ih
  | apart href hn ht hback _ ih =>
      have hname := hs _ (.ref href)
      have ih := ih fun n hfollows => hclosed.of_follows hg hname ht hfollows
      rw [← List.append_assoc] at ih
      exact .apart href (fresh hname hn) ht hback ih

/-! ### How deep it gets -/

variable (schemas) in
/-- How deep the declaration of a name is written. -/
def declaredDepth (name : String) : Nat := ((schemas.get? name).map Schema.depth).getD 0

variable (schemas keep) in
/-- The declared names among those to keep. -/
def declaredAmong : Finset String := schemas.keys.toFinset.filter fun y => keep y = true

omit hg hclosed in
/-- The depth of a declaration that comes to those above is taken from that of the others. -/
theorem depth_add_sum {name : String} (hs : schemas.get? name = some s) (hname : keep name = true)
    (hn : name ∉ above) :
    s.depth + ∑ y ∈ declaredAmong schemas keep \ (above ++ [name]).toFinset, declaredDepth schemas y =
      ∑ y ∈ declaredAmong schemas keep \ above.toFinset, declaredDepth schemas y := by
  have hmem : name ∈ declaredAmong schemas keep \ above.toFinset := by
    have hkey : name ∈ schemas.keys := Table.contains_iff_mem_keys.mp (Table.contains_of_get? hs)
    simp [declaredAmong, hkey, hname, hn]
  have herase : declaredAmong schemas keep \ (above ++ [name]).toFinset =
      (declaredAmong schemas keep \ above.toFinset).erase name := by
    ext y
    simp only [Finset.mem_sdiff, Finset.mem_erase, List.mem_toFinset, List.mem_append,
      List.mem_singleton]
    tauto
  have hdepth : declaredDepth schemas name = s.depth := by
    unfold declaredDepth
    rw [hs]
    rfl
  rw [herase, ← hdepth]
  exact Finset.add_sum_erase _ (declaredDepth schemas) hmem

/-- What is expanded inside declarations is nested at most one deeper than what is written in the
schema and in the other declarations to keep. -/
theorem Expands.depth_le (h : Expands schemas g above path s d)
    (hs : ∀ n, s.Follows n → keep n = true) :
    d.depth ≤ s.depth +
      (1 + ∑ y ∈ declaredAmong schemas keep \ above.toFinset, declaredDepth schemas y) := by
  have leaf : ∀ (ref : String) (n : Nat), 1 ≤ (Schema.ref ref).depth + (1 + n) := by
    intro ref n
    rw [Schema.depth]
    omega
  induction h with
  | inline about type _ ih =>
      refine depth_assemble_le about (Nat.le_add_right 1 _) ?_
      intro s hmem
      exact ih s hmem fun n hn => hs n (.part hmem hn)
  | back _ _ => exact leaf _ _
  | undeclared _ _ => exact leaf _ _
  | deep _ _ _ => exact leaf _ _
  | early _ _ _ => exact leaf _ _
  | inside href hn ht _ _ ih =>
      have hname := hs _ (.ref href)
      have ih := ih fun n hfollows => hclosed.of_follows hg hname ht hfollows
      rw [Nat.add_left_comm, depth_add_sum ht hname hn] at ih
      rwa [Schema.depth, Nat.zero_add]
  | apart href hn ht _ _ ih =>
      have hname := hs _ (.ref href)
      have ih := ih fun n hfollows => hclosed.of_follows hg hname ht hfollows
      rw [Nat.add_left_comm, depth_add_sum ht hname hn] at ih
      rwa [Schema.depth, Nat.zero_add]

end

/-! ### Entries -/

namespace Building

variable {b : Building} (hg : Graph.ofSchemas b.schemas = .ok b.graph)
  (htable : b.table.Holds fun y entry => ∃ t, b.schemas.get? y = some t ∧
    Expands b.schemas b.graph [y] [y] t entry.type)
include hg htable

/-- An entry that is looked up is expanded inside nothing on the way, as it does not lead back. -/
theorem expands_of_lookUp {path : List String} {ref name : String} {s : Schema}
    (href : refName ref = .ok name) (hn : name ∉ path) (hs : b.schemas.get? name = some s)
    (hback : b.graph.reachesAny name path = false) :
    Expands b.schemas b.graph path path (.ref ref) (b.lookUp name).type := by
  have hc := Table.contains_of_get? hs
  cases ht : b.table.get? name with
  | none =>
      rw [lookUp_of_get?_none ht]
      exact .early href hc hback
  | some entry =>
      rw [lookUp_of_get? ht]
      obtain ⟨t, ht, hexpands⟩ := htable name entry ht
      obtain rfl := Option.some.inj (hs.symm.trans ht)
      have hclosed := closed_near b.graph name
      have hnear : b.graph.near name name = true := Graph.near_iff.mpr .refl
      have hfurther : ∀ n ∈ path, b.graph.near name n = false := by
        intro n hmem
        by_contra hreach
        rw [Bool.not_eq_false, Graph.near_iff, Relation.reflTransGen_iff_eq_or_transGen] at hreach
        rcases hreach with rfl | hreach
        · exact hn hmem
        · rw [(reachesAny_eq_true_iff hg).mpr ⟨n, hmem, hreach⟩] at hback
          cases hback
      exact .apart href hn hs hback
        (hexpands.prepend hg hclosed hfurther fun n hf => hclosed.of_follows hg hnear hs hf)

/-- Expansion along a path is inside the declarations on it; every name that is put there takes one
from the room. -/
theorem expands_of_expand : ∀ (room : Nat) (path : List String) (s : Schema) (e : Expansion),
    path.length + room = maxInlineDepth →
    expand ⟨b.resolveAt room path, b.description⟩ s = .ok e →
    Expands b.schemas b.graph path path s e.type := by
  intro room path s e hlen h
  induction s using Schema.induction generalizing e with
  | inline shape ih =>
      obtain ⟨r, hr, htype⟩ := exists_assembled h
      rw [htype]
      exact .inline _ _ fun s hs => ih s hs _ (hr s hs)
  | ref ref =>
      rw [expand, bind_eq_ok] at h
      obtain ⟨name, href, h⟩ := h
      dsimp only at h
      by_cases hn : name ∈ path
      · rw [resolveAt_back hn] at h
        obtain rfl := Except.ok.inj h
        exact .back href hn
      cases hs : b.schemas.get? name with
      | none =>
          rw [resolveAt_undeclared hn hs] at h
          obtain rfl := Except.ok.inj h
          exact .undeclared href hs
      | some s =>
          cases hback : b.graph.reachesAny name path with
          | false =>
              rw [resolveAt_apart hn hs hback] at h
              obtain rfl := Except.ok.inj h
              exact expands_of_lookUp hg htable href hn hs hback
          | true =>
              cases room with
              | zero =>
                  rw [resolveAt_deep hn hs hback] at h
                  obtain rfl := Except.ok.inj h
                  exact .deep href hback hlen
              | succ rest =>
                  rw [resolveAt_inside hn hs hback] at h
                  have hlen : (path ++ [name]).length + rest = maxInlineDepth := by
                    rw [List.length_append, List.length_singleton]
                    omega
                  exact .inside href hn hs hback (expands_of_expand rest _ s e hlen h)

end Building

/-- Every declared name has an entry, in which no declaration is expanded inside itself: neither in
its place nor for an entry that is looked up, whatever the pass in which that was made.  It is nested
at most one deeper than what is written in all declarations that the name reaches, its own among them,
taken together. -/
theorem nesting_le {schemas : Table Schema} {r : Resolution} (h : resolveSchemas schemas = .ok r) :
    ∃ g, Graph.ofSchemas schemas = .ok g ∧ ∀ x s, schemas.get? x = some s →
      ∃ entry, r.table.get? x = some entry ∧ Expands schemas g [x] [x] s entry.type ∧
        entry.type.depth ≤
          1 + ∑ y ∈ declaredAmong schemas (g.near x), declaredDepth schemas y := by
  obtain ⟨g, hg⟩ := ofSchemas_of_resolveSchemas h
  refine ⟨g, hg, ?_⟩
  have hholds : r.table.Holds fun y entry => ∃ t, schemas.get? y = some t ∧
      Expands schemas g [y] [y] t entry.type := by
    refine resolveSchemas_holds h ?_
    intro g' hg' table name s entry deferred htable hs hentry
    obtain rfl := Except.ok.inj (hg.symm.trans hg')
    obtain ⟨e, he, hentry⟩ := bind_eq_ok.mp hentry
    obtain ⟨rfl, _⟩ := Prod.mk.inj (Except.ok.inj hentry)
    exact ⟨s, hs, Building.expands_of_expand hg htable (maxInlineDepth - 1) [name] s e rfl he⟩
  intro x s hs
  obtain ⟨r', hr', hkeys, _⟩ := resolveSchemas_stage hg
  obtain rfl := Except.ok.inj (h.symm.trans hr')
  obtain ⟨entry, hentry⟩ := Table.exists_get?_of_keys hkeys (Table.contains_of_get? hs)
  obtain ⟨t, ht, hexpands⟩ := hholds x entry hentry
  obtain rfl := Option.some.inj (hs.symm.trans ht)
  have hclosed := closed_near g x
  have hx : g.near x x = true := Graph.near_iff.mpr .refl
  have hdepth := hexpands.depth_le hg hclosed fun n hn => hclosed.of_follows hg hx hs hn
  have hsum := depth_add_sum hs hx (List.not_mem_nil : x ∉ [])
  rw [List.nil_append, List.toFinset_nil, Finset.sdiff_empty] at hsum
  rw [Nat.add_left_comm, hsum] at hdepth
  exact ⟨entry, hentry, hexpands, hdepth⟩

/-- In the household the house is nested four deep.  What is written of the house and of the family is
one deep for each of its four names, so it might be five. -/
theorem house_nesting : ∃ r g entry, resolveSchemas household = .ok r ∧
    Graph.ofSchemas household = .ok g ∧ r.table.get? "House" = some entry ∧
    Expands household g ["House"] ["House"]
      (.inline { properties := [("owner", .ref "#/schemas/Parent")] }) entry.type ∧
    entry.type.depth = 4 ∧
    ∑ y ∈ declaredAmong household (g.near "House"), declaredDepth household y = 4 := by
  have hdepth : ((resolveSchemas household).toOption.bind fun r =>
      (r.table.get? "House").map (·.type.depth)) = some 4 := by
    decide +kernel
  obtain ⟨r, hr, hdepth⟩ := Option.bind_eq_some_iff.mp hdepth
  have hr := toOption_eq_some_iff.mp hr
  obtain ⟨g, hg, hnesting⟩ := nesting_le hr
  obtain ⟨entry, hentry, hexpands, _⟩ := hnesting "House" _ rfl
  rw [hentry] at hdepth
  refine ⟨r, g, entry, hr, hg, hentry, hexpands, Option.some.inj hdepth, ?_⟩
  obtain rfl := Except.ok.inj hg
  decide +kernel

end ApiTypes
