import ApiTypes.Proofs.Resolution.Followed
import ApiTypes.Proofs.Resolution.Outcome
import ApiTypes.Proofs.Resolution.Redirection
import Mathlib.Data.List.Chain

/-! # Substitution

Where the references that expansion follows form no cycle, they can be substituted by what they refer
to, and entries are what comes of that (`entries_substituted`).  The graph of references has more
edges: it also has those under an enumeration, under a primitive type or beside properties.  By these
a name may lead back to one on the path that its own expansion does not lead back to.  Then it is
expanded in place, and as the path may have so many names only, a chain of references with more names
inside one component is cut (`ladder_cut`).

Main definitions: `Uses`, `Substituted`, `Trail`. -/

namespace ApiTypes

/-! ### Substitution -/

/-- The declaration of the first name is expanded through the second. -/
def Uses (schemas : Table Schema) (x y : String) : Prop :=
  ∃ s, schemas.get? x = some s ∧ s.Follows y

/-- The descriptor of a schema with every reference that is followed substituted by its target. -/
inductive Substituted (schemas : Table Schema) : Schema → Descriptor → Prop
  | undeclared {ref name : String} :
      refName ref = .ok name → schemas.get? name = none → Substituted schemas (.ref ref) (.pending name)
  | declared {ref name : String} {s : Schema} {d : Descriptor} :
      refName ref = .ok name → schemas.get? name = some s → Substituted schemas s d →
      Substituted schemas (.ref ref) d
  | inline {shape : Shape} {type : Schema → Descriptor} :
      (∀ s ∈ shape.parts, Substituted schemas s (type s)) →
      Substituted schemas (.inline shape) (shape.assemble (fun _ => none) type)

section
variable {schemas : Table Schema} {g : Graph}

theorem Substituted.unique {s : Schema} {d d' : Descriptor} (h : Substituted schemas s d)
    (h' : Substituted schemas s d') : d = d' := by
  induction h generalizing d' with
  | undeclared href hnone =>
      cases h' with
      | undeclared href' _ => rw [Except.ok.inj (href.symm.trans href')]
      | declared href' hs _ =>
          obtain rfl := Except.ok.inj (href.symm.trans href')
          cases hnone.symm.trans hs
  | declared href hs _ ih =>
      cases h' with
      | undeclared href' hnone =>
          obtain rfl := Except.ok.inj (href.symm.trans href')
          cases hnone.symm.trans hs
      | declared href' hs' h' =>
          obtain rfl := Except.ok.inj (href.symm.trans href')
          obtain rfl := Option.some.inj (hs.symm.trans hs')
          exact ih h'
  | inline _ ih =>
      cases h' with
      | inline h' => exact Shape.assemble_congr fun s hs => ih s hs (h' s hs)

/-! ### Chains of references -/

/-- No chain of references that are followed from the name has more steps. -/
def Depth (schemas : Table Schema) (n : Nat) (x : String) : Prop :=
  ∀ rest, (x :: rest).IsChain (Uses schemas) → rest.length ≤ n

theorem Depth.uses {n : Nat} {x y : String} (h : Depth schemas n x) (hxy : Uses schemas x y) :
    ∃ m, n = m + 1 ∧ Depth schemas m y := by
  have hpos : 1 ≤ n := h [y] (List.isChain_cons_cons.mpr ⟨hxy, .singleton y⟩)
  refine ⟨n - 1, by omega, ?_⟩
  intro rest hrest
  have := h (y :: rest) (List.isChain_cons_cons.mpr ⟨hxy, hrest⟩)
  rw [List.length_cons] at this
  omega

theorem Depth.transGen {n : Nat} {x y : String} (h : Depth schemas n x)
    (hxy : Relation.TransGen (Uses schemas) x y) : ∃ m < n, Depth schemas m y := by
  induction hxy with
  | single hxy =>
      obtain ⟨m, rfl, hm⟩ := h.uses hxy
      exact ⟨m, Nat.lt_succ_self m, hm⟩
  | tail _ hyz ih =>
      obtain ⟨m, hlt, hm⟩ := ih
      obtain ⟨k, rfl, hk⟩ := hm.uses hyz
      exact ⟨k, by omega, hk⟩

section rank
variable {rank : String → Nat} (hrank : ∀ x y, Uses schemas x y → rank y < rank x)
include hrank

theorem acyclic_of_rank (x : String) : ¬ Relation.TransGen (Uses schemas) x x := by
  have hlt : ∀ y, Relation.TransGen (Uses schemas) x y → rank y < rank x := by
    intro y hy
    induction hy with
    | single hxy => exact hrank _ _ hxy
    | tail _ hyz ih => exact (hrank _ _ hyz).trans ih
  exact fun h => Nat.lt_irrefl _ (hlt x h)

theorem depth_of_rank (x : String) : Depth schemas (rank x) x := by
  intro rest
  induction rest generalizing x with
  | nil => exact fun _ => Nat.zero_le _
  | cons y rest ih =>
      intro hchain
      obtain ⟨hxy, hchain⟩ := List.isChain_cons_cons.mp hchain
      exact Nat.succ_le_of_lt (Nat.lt_of_le_of_lt (ih y hchain) (hrank x y hxy))

end rank

/-- What is met on the way of a name it uses, directly or through others. -/
theorem Visits.uses {path q : List String} {s : Schema} {name : String}
    (hv : Visits schemas g path s q name) {x : String}
    (hs : ∀ n, s.Follows n → Relation.TransGen (Uses schemas) x n) :
    Relation.TransGen (Uses schemas) x name := by
  induction hv with
  | here href => exact hs _ (.ref href)
  | part hmem _ ih => exact ih fun n hn => hs n (.part hmem hn)
  | inside href _ htarget _ _ _ ih =>
      exact ih fun n hn => (hs _ (.ref href)).tail ⟨_, htarget, hn⟩

theorem LooksUp.uses {x y : String} (h : LooksUp schemas g x y) :
    Relation.TransGen (Uses schemas) x y := by
  obtain ⟨s, hs, q, hv, _⟩ := h
  exact hv.uses fun n hn => .single ⟨s, hs, hn⟩

/-- A chain of lookups leads forward no more often than references are followed on it. -/
theorem forwardSteps_le_of_depth (rest : List String) : ∀ {n : Nat} {x : String},
    Depth schemas n x → (x :: rest).IsChain (LooksUp schemas g) →
    forwardSteps schemas (x :: rest) ≤ n := by
  induction rest with
  | nil => exact fun _ _ => Nat.zero_le _
  | cons y rest ih =>
      intro n x hdepth hchain
      obtain ⟨hxy, hchain⟩ := List.isChain_cons_cons.mp hchain
      obtain ⟨m, hlt, hm⟩ := hdepth.transGen hxy.uses
      have hrest := ih hm hchain
      have hone := forward_le_one schemas x y
      rw [forwardSteps]
      omega

/-! ### Expansion along a chain -/

variable (schemas g) in
/-- A path by references that are followed, from the first of its names to the last, all of which lead
back to the first. -/
structure Trail (first : String) (rest : List String) (last : String) : Prop where
  chain : (first :: rest).IsChain (Uses schemas)
  getLast_eq : (first :: rest).getLast (List.cons_ne_nil first rest) = last
  back : ∀ y ∈ rest, g.edges.Reaches y first

theorem Trail.single (x : String) : Trail schemas g x [] x :=
  ⟨.singleton x, rfl, fun _ h => nomatch h⟩

variable {first last name : String} {rest : List String}

theorem Trail.append (h : Trail schemas g first rest last) (hname : Uses schemas last name)
    (hback : g.edges.Reaches name first) : Trail schemas g first (rest ++ [name]) name where
  chain := by
    refine h.chain.append (.singleton name) ?_
    intro a ha b hb
    rw [List.getLast?_eq_some_getLast (List.cons_ne_nil first rest), h.getLast_eq] at ha
    obtain rfl := Option.some.inj ha
    obtain rfl := Option.some.inj hb
    exact hname
  getLast_eq := by
    simp only [← List.cons_append]
    exact List.getLast_append_singleton _
  back y hy := by
    rcases List.mem_append.mp hy with hy | hy
    · exact h.back y hy
    · exact List.mem_singleton.mp hy ▸ hback

/-- Without cycles of references a trail comes to no name a second time. -/
theorem Trail.not_mem (hacyclic : ∀ x, ¬ Relation.TransGen (Uses schemas) x x)
    (h : Trail schemas g first rest last) (hname : Uses schemas last name) : name ∉ first :: rest := by
  intro hmem
  have hlast : Relation.ReflTransGen (Uses schemas) name last :=
    h.chain.backwards_cons_induction (Relation.ReflTransGen (Uses schemas) · last) rest
      h.getLast_eq (fun _ _ hab hb => hb.head hab) .refl name hmem
  exact hacyclic name (Relation.TransGen.tail' hlast hname)

theorem Trail.leads_back (h : Trail schemas g first rest last)
    (hg : Graph.ofSchemas schemas = .ok g) (hback : g.reachesAny name (first :: rest) = true) :
    g.edges.Reaches name first := by
  obtain ⟨o, ho, hreach⟩ := (reachesAny_eq_true_iff hg).mp hback
  rcases List.mem_cons.mp ho with rfl | ho
  · exact hreach
  · exact Relation.TransGen.trans hreach (h.back o ho)

variable {E : List String → Schema → Descriptor}

/-- Along a trail a schema that the last name is expanded through unfolds to what substitution makes
of it, as long as no trail fills the path.  The induction is on how far references can be followed,
and in the schema. -/
theorem Trail.substituted (hg : Graph.ofSchemas schemas = .ok g) (hE : Unfolds schemas g E)
    (hacyclic : ∀ x, ¬ Relation.TransGen (Uses schemas) x x)
    (hroom : ∀ x rest, (x :: rest).IsChain (Uses schemas) → (∀ y ∈ rest, g.edges.Reaches y x) →
      rest.length < maxInlineDepth) (n : Nat) : ∀ {first last : String} {rest : List String},
    Depth schemas n last → Trail schemas g first rest last →
    ∀ s : Schema, (∃ found, s.references = .ok found) → (∀ name, s.Follows name → Uses schemas last name) →
      Substituted schemas s (E (first :: rest) s) := by
  induction n using Nat.strong_induction_on with
  | _ n shallower =>
      intro first last rest hdepth htrail s hvalid huses
      induction s using Schema.induction with
      | inline shape ih =>
          rw [hE.inline]
          refine .inline fun s hs => ih s hs ?_ fun name hname => huses name (.part hs hname)
          obtain ⟨found, hfound⟩ := hvalid
          obtain ⟨ofPart, hpart, _⟩ := references_part hfound hs
          exact ⟨ofPart, hpart⟩
      | ref ref =>
          obtain ⟨found, hfound⟩ := hvalid
          obtain ⟨name, href, _⟩ := refName_of_references hfound
          have hname : Uses schemas last name := huses name (.ref href)
          have hn : name ∉ first :: rest := htrail.not_mem hacyclic hname
          obtain ⟨m, rfl, hm⟩ := hdepth.uses hname
          cases ht : schemas.get? name with
          | none =>
              rw [hE.undeclared href hn ht]
              exact .undeclared href ht
          | some t =>
              have hvalid : ∃ found, t.references = .ok found := ⟨_, ofSchemas_targets hg ht⟩
              have huses : ∀ n, t.Follows n → Uses schemas name n := fun n h => ⟨t, ht, h⟩
              refine .declared href ht ?_
              cases hback : g.reachesAny name (first :: rest) with
              | false =>
                  rw [hE.apart href hn ht hback]
                  exact shallower m (Nat.lt_succ_self m) hm (.single name) t hvalid huses
              | true =>
                  have hlonger := htrail.append hname (htrail.leads_back hg hback)
                  have hlt : (first :: rest).length < maxInlineDepth := by
                    have := hroom first _ hlonger.chain hlonger.back
                    rwa [List.length_append] at this
                  rw [hE.inside href hn ht hback hlt]
                  exact shallower m (Nat.lt_succ_self m) hm hlonger t hvalid huses

/-- If the references that are followed form no cycle, no chain of them has more steps than there are
retry passes, and none inside a component of the graph has more names than a path may have, then every
entry is its declaration with each of them substituted by its target. -/
theorem entries_substituted {r : Resolution} (h : resolveSchemas schemas = .ok r)
    (hg : Graph.ofSchemas schemas = .ok g)
    (hacyclic : ∀ x, ¬ Relation.TransGen (Uses schemas) x x)
    (hshort : ∀ x rest, (x :: rest).IsChain (Uses schemas) → rest.length ≤ maxRetryPasses)
    (hroom : ∀ x rest, (x :: rest).IsChain (Uses schemas) → (∀ y ∈ rest, g.edges.Reaches y x) →
      rest.length < maxInlineDepth) :
    ∀ x s, schemas.get? x = some s → ∃ entry, r.table.get? x = some entry ∧
      ∀ d, Substituted schemas s d ↔ entry.type.bare = d := by
  intro x s hs
  obtain ⟨r', hr', hkeys, hfaithful, hsettled⟩ := resolveSchemas_stage hg
  obtain rfl := Except.ok.inj (h.symm.trans hr')
  have hx : schemas.contains x = true := Table.contains_of_get? hs
  have hfinal : FinalAfter schemas g (maxRetryPasses + 1) x := fun rest hrest =>
    Nat.lt_succ_of_le (forwardSteps_le_of_depth rest (hshort x) hrest)
  obtain ⟨entry, hentry, hquiet⟩ := (hsettled x hx).mpr hfinal
  have htype : entry.type.bare = unfold schemas g [x] s :=
    hfaithful x s entry hs hentry hquiet _ (unfolds_unfold hg)
  have hsubstituted : Substituted schemas s entry.type.bare := by
    rw [htype]
    exact Trail.substituted hg (unfolds_unfold hg) hacyclic hroom maxRetryPasses (hshort x)
      (.single x) s ⟨_, ofSchemas_targets hg hs⟩ fun n hn => ⟨s, hs, hn⟩
  refine ⟨entry, hentry, fun d => ⟨hsubstituted.unique, ?_⟩⟩
  rintro rfl
  exact hsubstituted

end

/-! ### Ladders -/

/-- The name of a rung. -/
def rung (i : Nat) : String := String.ofList (List.replicate (i + 1) 'a')

/-- Each rung has the next one in it; the last is a text, under which the first is referred to. -/
def rungSchema (height i : Nat) : Schema :=
  if i < height then .inline { properties := [("next", .ref ("#/schemas/" ++ rung (i + 1)))] }
  else .inline {
    type := some (.single .string), properties := [("first", .ref ("#/schemas/" ++ rung 0))] }

theorem rung_injective : Function.Injective rung := by
  intro i j h
  have := congrArg (·.toList.length) h
  simpa [rung] using this

/-- The rungs up to a height. -/
def ladder (height : Nat) : Table Schema :=
  ⟨(List.range (height + 1)).map fun i => (rung i, rungSchema height i), by
    rw [List.map_map]
    exact List.nodup_range.map rung_injective⟩

/-- What the rung at so many steps from the last one is made of. -/
def rungType : Nat → Descriptor
  | 0 => .primitive .string
  | n + 1 => .object [{ key := "next", type := rungType n }]

theorem refName_rung (i : Nat) : refName ("#/schemas/" ++ rung i) = .ok (rung i) := by
  have hpath : ("#/schemas/" ++ rung i).toList =
      "#/schemas".toList ++ '/' :: List.replicate (i + 1) 'a' := by
    simp [rung]
  have hlast : Text.lastSegment '/' (List.replicate (i + 1) 'a') = List.replicate (i + 1) 'a' := by
    unfold Text.lastSegment
    rw [List.reverse_replicate, List.takeWhile_replicate]
    simp
  unfold refName
  rw [hpath, Text.lastSegment_append, hlast]
  rfl

theorem get?_ladder {height i : Nat} (hi : i ≤ height) :
    (ladder height).get? (rung i) = some (rungSchema height i) :=
  Table.get?_of_mem (List.mem_map.mpr ⟨i, List.mem_range.mpr (Nat.lt_succ_of_le hi), rfl⟩)

theorem uses_ladder {height : Nat} {x y : String} (h : Uses (ladder height) x y) :
    ∃ i < height, x = rung i ∧ y = rung (i + 1) := by
  obtain ⟨s, hs, hfollows⟩ := h
  obtain ⟨i, hi, he⟩ := List.mem_map.mp (Table.mem_of_get? hs)
  obtain ⟨rfl, rfl⟩ := Prod.mk.inj he
  unfold rungSchema at hfollows
  split at hfollows
  · next hlt =>
    cases hfollows with
    | part hmem hpart =>
        obtain rfl := List.mem_singleton.mp hmem
        cases hpart with
        | ref href => exact ⟨i, hlt, rfl, Except.ok.inj (href.symm.trans (refName_rung (i + 1)))⟩
  · cases hfollows with
    | part hmem _ => cases hmem

theorem rank_ladder {height : Nat} (x y : String) (h : Uses (ladder height) x y) :
    height - (y.toList.length - 1) < height - (x.toList.length - 1) := by
  obtain ⟨i, hi, rfl, rfl⟩ := uses_ladder h
  simp only [rung, String.toList_ofList, List.length_replicate]
  omega

theorem ladder_acyclic (height : Nat) : ∀ x, ¬ Relation.TransGen (Uses (ladder height)) x x :=
  acyclic_of_rank rank_ladder

theorem ladder_depth (height : Nat) (x : String) : Depth (ladder height) height x :=
  fun rest hrest => (depth_of_rank rank_ladder x rest hrest).trans (Nat.sub_le _ _)

theorem ladder_rungType {height : Nat} (n : Nat) : ∀ i, i + n = height →
    Substituted (ladder height) (rungSchema height i) (rungType n) := by
  induction n with
  | zero =>
      intro i hi
      unfold rungSchema
      rw [if_neg (by omega)]
      exact @Substituted.inline _ _ (fun _ => .any) fun s hs => nomatch hs
  | succ n ih =>
      intro i hi
      unfold rungSchema
      rw [if_pos (by omega)]
      refine @Substituted.inline _ _ (fun _ => rungType n) ?_
      intro s hs
      obtain rfl := List.mem_singleton.mp hs
      exact .declared (refName_rung (i + 1)) (get?_ladder (by omega)) (ih (i + 1) (by omega))

/-- As many rungs as a path may have names are substituted. -/
theorem ladder_substituted : ∃ r g entry, resolveSchemas (ladder 7) = .ok r ∧
    Graph.ofSchemas (ladder 7) = .ok g ∧
    (∀ x, ¬ Relation.TransGen (Uses (ladder 7)) x x) ∧
    (∀ x rest, (x :: rest).IsChain (Uses (ladder 7)) → rest.length ≤ maxRetryPasses) ∧
    (∀ x rest, (x :: rest).IsChain (Uses (ladder 7)) → (∀ y ∈ rest, g.edges.Reaches y x) →
      rest.length < maxInlineDepth) ∧
    (ladder 7).get? (rung 0) = some (rungSchema 7 0) ∧ r.table.get? (rung 0) = some entry ∧
    entry.type.bare = rungType 7 := by
  have hresolved : (resolveSchemas (ladder 7)).toOption.isSome = true := by decide +kernel
  obtain ⟨r, hr⟩ := Option.isSome_iff_exists.mp hresolved
  have hr := toOption_eq_some_iff.mp hr
  obtain ⟨g, hg⟩ := ofSchemas_of_resolveSchemas hr
  have hshort : ∀ x rest, (x :: rest).IsChain (Uses (ladder 7)) → rest.length ≤ maxRetryPasses :=
    fun x rest hrest => (ladder_depth 7 x rest hrest).trans (by decide)
  have hroom : ∀ x rest, (x :: rest).IsChain (Uses (ladder 7)) →
      (∀ y ∈ rest, g.edges.Reaches y x) → rest.length < maxInlineDepth :=
    fun x rest hrest _ => Nat.lt_succ_of_le (ladder_depth 7 x rest hrest)
  have hfirst : (ladder 7).get? (rung 0) = some (rungSchema 7 0) := get?_ladder (Nat.zero_le 7)
  obtain ⟨entry, hentry, htype⟩ :=
    entries_substituted hr hg (ladder_acyclic 7) hshort hroom (rung 0) (rungSchema 7 0) hfirst
  exact ⟨r, g, entry, hr, hg, ladder_acyclic 7, hshort, hroom, hfirst, hentry,
    (htype _).mp (ladder_rungType 7 0 rfl)⟩

/-- One more rung, and the last one is cut: by what it refers to without being made of it, it leads
back to a path that is full. -/
theorem ladder_cut : (∀ x, ¬ Relation.TransGen (Uses (ladder 8)) x x) ∧
    (∀ x rest, (x :: rest).IsChain (Uses (ladder 8)) → rest.length ≤ maxRetryPasses) ∧
    ∃ r entry, resolveSchemas (ladder 8) = .ok r ∧
      (ladder 8).get? (rung 0) = some (rungSchema 8 0) ∧
      Substituted (ladder 8) (rungSchema 8 0) (rungType 8) ∧
      r.table.get? (rung 0) = some entry ∧ entry.type.bare ≠ rungType 8 := by
  have htype : ((resolveSchemas (ladder 8)).toOption.bind fun r =>
      (r.table.get? (rung 0)).map fun entry => decide (entry.type.bare = rungType 8)) =
        some false := by
    decide +kernel
  obtain ⟨r, hr, htype⟩ := Option.bind_eq_some_iff.mp htype
  obtain ⟨entry, hentry, htype⟩ := Option.map_eq_some_iff.mp htype
  exact ⟨ladder_acyclic 8, fun x rest hrest => (ladder_depth 8 x rest hrest).trans (by decide),
    r, entry, toOption_eq_some_iff.mp hr, get?_ladder (Nat.zero_le 8), ladder_rungType 8 0 rfl,
    hentry, of_decide_eq_false htype⟩

end ApiTypes
