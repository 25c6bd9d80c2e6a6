import ApiTypes.Proofs.Resolution.Entries

/-! # Passes over named schemas

A lookup forward, of a name declared later, sees the entry of the pass before; any other sees that
of the same pass.  So an entry is settled after so many passes exactly when no chain of lookups from
its name goes forward as often (`FinalAfter`).  `Midway` is the invariant inside a pass and `Stage`
the one between passes; every retry pass settles a further name (`exists_newly_final`), so the loop
never stalls.

Main statements: `firstPass_stage`, `retryPass_stage`, `retry_stage`, `resolveSchemas_stage`. -/

namespace ApiTypes

/-! ### Chains of lookups -/

section chains
variable (schemas : Table Schema) (g : Graph)

/-- One where the second name is declared after the first, and zero otherwise. -/
def forward (x y : String) : Nat := if schemas.keys.idxOf x < schemas.keys.idxOf y then 1 else 0

/-- How many steps of a chain lead to a name declared later. -/
def forwardSteps : List String → Nat
  | x :: y :: rest => forward schemas x y + forwardSteps (y :: rest)
  | _ => 0

/-- No chain of lookups from the name leads forward as often. -/
def FinalAfter (passes : Nat) (x : String) : Prop :=
  ∀ rest, (x :: rest).IsChain (LooksUp schemas g) → forwardSteps schemas (x :: rest) < passes

end chains

variable {schemas : Table Schema} {g : Graph}

theorem forward_le_one (schemas : Table Schema) (x y : String) : forward schemas x y ≤ 1 := by
  unfold forward
  split <;> omega

theorem finalAfter_iff {passes : Nat} {x : String} :
    FinalAfter schemas g passes x ↔
      0 < passes ∧ ∀ y, LooksUp schemas g x y → FinalAfter schemas g (passes - forward schemas x y) y := by
  constructor
  · intro h
    refine ⟨h [] (.singleton x), ?_⟩
    intro y hy rest hrest
    have := h (y :: rest) (List.isChain_cons_cons.mpr ⟨hy, hrest⟩)
    rw [forwardSteps] at this
    omega
  · rintro ⟨hpos, h⟩ rest hrest
    cases rest with
    | nil => exact hpos
    | cons y rest =>
        obtain ⟨hy, hrest⟩ := List.isChain_cons_cons.mp hrest
        have := h y hy rest hrest
        rw [forwardSteps]
        omega

theorem FinalAfter.mono {passes more : Nat} {x : String} (h : FinalAfter schemas g passes x)
    (hle : passes ≤ more) : FinalAfter schemas g more x :=
  fun rest hrest => (h rest hrest).trans_le hle

theorem not_finalAfter_zero (x : String) : ¬ FinalAfter schemas g 0 x :=
  fun h => absurd (finalAfter_iff.mp h).1 (by omega)

/-- As long as a name is not final, there is one that another pass makes final. -/
theorem exists_newly_final (hg : Graph.ofSchemas schemas = .ok g) {passes : Nat} {x : String}
    (hx : schemas.contains x = true) (h : ¬ FinalAfter schemas g passes x) :
    ∃ z, schemas.contains z = true ∧ ¬ FinalAfter schemas g passes z ∧
      FinalAfter schemas g (passes + 1) z := by
  induction hr : rank schemas g x using Nat.strong_induction_on generalizing x with
  | _ r ih =>
      subst hr
      by_cases hy : ∃ y, LooksUp schemas g x y ∧ ¬ FinalAfter schemas g passes y
      · obtain ⟨y, hy, hny⟩ := hy
        exact ih _ (hy.rank_lt hg) hy.declared hny rfl
      · refine ⟨x, hx, h, finalAfter_iff.mpr ⟨Nat.succ_pos _, ?_⟩⟩
        intro y hly
        have hf : FinalAfter schemas g passes y := by
          by_contra hny
          exact hy ⟨y, hly, hny⟩
        have := forward_le_one schemas x y
        exact hf.mono (by omega)

/-! ### Settled names -/

/-- The name has an entry that waits for no declared name. -/
def Settled (schemas : Table Schema) (table : Table ResolvedSchema) (x : String) : Prop :=
  ∃ entry, table.get? x = some entry ∧ ¬ entry.type.Awaits schemas

/-- Every entry that waits for no declared name is the unfolding of its name. -/
def Faithful (schemas : Table Schema) (g : Graph) (table : Table ResolvedSchema) : Prop :=
  ∀ x s entry, schemas.get? x = some s → table.get? x = some entry → ¬ entry.type.Awaits schemas →
    ∀ E, Unfolds schemas g E → entry.type.bare = E [x] s

theorem settled_insert_self {table : Table ResolvedSchema} {x : String} {entry : ResolvedSchema} :
    Settled schemas (table.insert x entry) x ↔ ¬ entry.type.Awaits schemas := by
  unfold Settled
  rw [Table.get?_insert, if_pos rfl]
  simp

theorem settled_insert_of_ne {table : Table ResolvedSchema} {x z : String} {entry : ResolvedSchema}
    (h : z ≠ x) : Settled schemas (table.insert x entry) z ↔ Settled schemas table z := by
  unfold Settled
  rw [Table.get?_insert, if_neg h]

theorem lookUp_awaits_iff {table : Table ResolvedSchema} {y : String}
    (hy : schemas.contains y = true) :
    (Building.lookUp ⟨schemas, g, table⟩ y).type.Awaits schemas ↔ ¬ Settled schemas table y := by
  unfold Settled
  cases he : table.get? y with
  | none =>
      rw [Building.lookUp_of_get?_none he]
      simp [Descriptor.Awaits, Descriptor.pendingTargets, hy]
  | some entry =>
      rw [Building.lookUp_of_get? he]
      simp

/-- One entry is made.  It waits exactly when a name that it looks up is not settled. -/
theorem exists_entry (hg : Graph.ofSchemas schemas = .ok g) {table : Table ResolvedSchema}
    (hf : Faithful schemas g table) {x : String} {s : Schema} (hs : schemas.get? x = some s) :
    ∃ entry deferred, Building.entry ⟨schemas, g, table⟩ x s = .ok (entry, deferred) ∧
      (deferred = true ↔ entry.type.Awaits schemas) ∧
      (entry.type.Awaits schemas ↔ ∃ y, LooksUp schemas g x y ∧ ¬ Settled schemas table y) ∧
      Faithful schemas g (table.insert x entry) := by
  obtain ⟨entry, deferred, he, hd, hw, hE⟩ :=
    Building.entry_spec (b := ⟨schemas, g, table⟩) hg hs
  have hawaits : entry.type.Awaits schemas ↔
      ∃ y, LooksUp schemas g x y ∧ ¬ Settled schemas table y := by
    rw [hw]
    exact exists_congr fun y => and_congr_right fun hy => lookUp_awaits_iff hy.declared
  refine ⟨entry, deferred, he, hd, hawaits, ?_⟩
  intro z t found ht hfound hnot E hunf
  rw [Table.get?_insert] at hfound
  split at hfound
  · rename_i hz
    subst hz
    obtain rfl := Option.some.inj hfound
    obtain rfl := Option.some.inj (hs.symm.trans ht)
    apply hE E hunf
    intro y u hy hu
    have hsettled : Settled schemas table y := by
      by_contra hny
      exact hnot (hawaits.mpr ⟨y, hy, hny⟩)
    obtain ⟨found, hget, hquiet⟩ := hsettled
    rw [Building.lookUp_of_get? hget]
    exact hf y u found hu hget hquiet E hunf
  · exact hf z t found ht hfound hnot E hunf

/-! ### Inside a pass -/

/-- The pass after so many others has come to the names given, which are the first ones declared. -/
structure Midway (schemas : Table Schema) (g : Graph) (passes : Nat) (done : List String)
    (table : Table ResolvedSchema) (pending : List String) : Prop where
  faithful : Faithful schemas g table
  settled_done : ∀ x ∈ done, Settled schemas table x ↔ FinalAfter schemas g (passes + 1) x
  settled_todo : ∀ x, schemas.contains x = true → x ∉ done →
    (Settled schemas table x ↔ FinalAfter schemas g passes x)
  pending_iff : ∀ x, x ∈ pending ↔ x ∈ done ∧ ¬ FinalAfter schemas g (passes + 1) x

/-- Of the names declared besides `x`, those before it are looked up without a step forward. -/
theorem forward_eq {done rest : List String} {x y : String} (hkeys : schemas.keys = done ++ x :: rest)
    (hne : y ≠ x) :
    forward schemas x y = if y ∈ done then 0 else 1 := by
  have hnodup : (done ++ x :: rest).Nodup := hkeys ▸ schemas.nodup
  have hx : x ∉ done := fun h => (List.nodup_append.mp hnodup).2.2 x h x List.mem_cons_self rfl
  have hxi : (done ++ x :: rest).idxOf x = done.length := by
    rw [List.idxOf_append_of_notMem hx, List.idxOf_cons_self, Nat.add_zero]
  unfold forward
  rw [hkeys, hxi]
  by_cases hd : y ∈ done
  · have hlt := List.idxOf_lt_length_of_mem hd
    rw [List.idxOf_append_of_mem hd, if_pos hd, if_neg (by omega)]
  · rw [List.idxOf_append_of_notMem hd, List.idxOf_cons_ne _ hne.symm, if_neg hd, if_pos (by omega)]

namespace Midway

variable {passes : Nat} {done rest pending : List String} {table : Table ResolvedSchema}
  {x : String}

theorem contains_of_keys (hkeys : schemas.keys = done ++ x :: rest) {z : String}
    (hz : z ∈ done ++ [x]) : schemas.contains z = true := by
  rw [Table.contains_iff_mem_keys, hkeys]
  exact List.mem_append.mpr ((List.mem_append.mp hz).imp_right fun h => by simp_all)

theorem not_mem_done (hkeys : schemas.keys = done ++ x :: rest) : x ∉ done := by
  have hnodup : (done ++ x :: rest).Nodup := hkeys ▸ schemas.nodup
  exact fun h => (List.nodup_append.mp hnodup).2.2 x h x List.mem_cons_self rfl

/-- What the name that is next looks up is settled as far as this pass lets it be. -/
theorem settled_lookup_iff (h : Midway schemas g passes done table pending)
    (hg : Graph.ofSchemas schemas = .ok g) (hkeys : schemas.keys = done ++ x :: rest) {y : String}
    (hy : LooksUp schemas g x y) :
    Settled schemas table y ↔ FinalAfter schemas g (passes + 1 - forward schemas x y) y := by
  rw [forward_eq hkeys (hy.reaches hg).2.1]
  by_cases hd : y ∈ done
  · rw [if_pos hd]
    exact h.settled_done y hd
  · rw [if_neg hd]
    exact h.settled_todo y hy.declared hd

/-- The next name gets an entry. -/
theorem step (h : Midway schemas g passes done table pending)
    (hg : Graph.ofSchemas schemas = .ok g) (hkeys : schemas.keys = done ++ x :: rest) {s : Schema}
    (hs : schemas.get? x = some s) :
    ∃ entry deferred, Building.entry ⟨schemas, g, table⟩ x s = .ok (entry, deferred) ∧
      Midway schemas g passes (done ++ [x]) (table.insert x entry)
        (if deferred then pending ++ [x] else pending) := by
  obtain ⟨entry, deferred, he, hd, hawaits, hf⟩ := exists_entry hg h.faithful hs
  have hx : x ∉ done := not_mem_done hkeys
  have hfinal : entry.type.Awaits schemas ↔ ¬ FinalAfter schemas g (passes + 1) x := by
    rw [hawaits, finalAfter_iff]
    simp only [Nat.succ_pos, true_and, not_forall]
    exact exists_congr fun y => ⟨
      fun ⟨hy, hn⟩ => ⟨hy, fun hfin => hn ((h.settled_lookup_iff hg hkeys hy).mpr hfin)⟩,
      fun ⟨hy, hn⟩ => ⟨hy, fun hset => hn ((h.settled_lookup_iff hg hkeys hy).mp hset)⟩⟩
  refine ⟨entry, deferred, he, hf, ?_, ?_, ?_⟩
  · intro z hz
    rcases List.mem_append.mp hz with hz | hz
    · have hne : z ≠ x := fun e => hx (e ▸ hz)
      rw [settled_insert_of_ne hne]
      exact h.settled_done z hz
    · obtain rfl := List.mem_singleton.mp hz
      rw [settled_insert_self, hfinal, not_not]
  · intro z hc hz
    simp only [List.mem_append, List.mem_singleton, not_or] at hz
    rw [settled_insert_of_ne hz.2]
    exact h.settled_todo z hc hz.1
  · intro z
    have hpend := h.pending_iff z
    by_cases hz : z = x
    · subst hz
      have hzp : z ∉ pending := fun hm => hx (hpend.mp hm).1
      cases hdef : deferred with
      | true => simp [hfinal.mp (hd.mp hdef)]
      | false =>
          have hfin : FinalAfter schemas g (passes + 1) z := by
            by_contra hn
            simp [hd.mpr (hfinal.mpr hn)] at hdef
          simp [hzp, hfin]
    · cases deferred <;> simp [hz, hpend]

/-- The next name is settled and is passed over. -/
theorem skip (h : Midway schemas g passes done table pending)
    (hkeys : schemas.keys = done ++ x :: rest) (hx : FinalAfter schemas g passes x) :
    Midway schemas g passes (done ++ [x]) table pending := by
  have hxd : x ∉ done := not_mem_done hkeys
  have hmore : FinalAfter schemas g (passes + 1) x := hx.mono (Nat.le_succ _)
  have hc : schemas.contains x = true := contains_of_keys hkeys (by simp)
  refine ⟨h.faithful, ?_, ?_, ?_⟩
  · intro z hz
    rcases List.mem_append.mp hz with hz | hz
    · exact h.settled_done z hz
    · obtain rfl := List.mem_singleton.mp hz
      exact iff_of_true ((h.settled_todo z hc hxd).mpr hx) hmore
  · intro z hz hn
    simp only [List.mem_append, List.mem_singleton, not_or] at hn
    exact h.settled_todo z hz hn.1
  · intro z
    rw [h.pending_iff z]
    simp only [List.mem_append, List.mem_singleton]
    constructor
    · rintro ⟨hz, hn⟩
      exact ⟨Or.inl hz, hn⟩
    · rintro ⟨hz | rfl, hn⟩
      · exact ⟨hz, hn⟩
      · exact absurd hmore hn

end Midway

/-! ### Whole passes -/

/-- So many passes are made: the names settled are the final ones, and all others wait. -/
structure Stage (schemas : Table Schema) (g : Graph) (passes : Nat) (p : Progress) : Prop where
  keys : p.table.keys = schemas.keys
  faithful : Faithful schemas g p.table
  settled_iff : ∀ x, schemas.contains x = true →
    (Settled schemas p.table x ↔ FinalAfter schemas g passes x)
  pending_iff : ∀ x, x ∈ p.pending ↔
    schemas.contains x = true ∧ ¬ FinalAfter schemas g passes x

theorem Midway.stage {passes : Nat} {p : Progress}
    (h : Midway schemas g passes schemas.keys p.table p.pending)
    (hkeys : p.table.keys = schemas.keys) : Stage schemas g (passes + 1) p where
  keys := hkeys
  faithful := h.faithful
  settled_iff x hx := h.settled_done x (Table.contains_iff_mem_keys.mp hx)
  pending_iff x := by rw [Table.contains_iff_mem_keys]; exact h.pending_iff x

theorem keys_of_entries {pre post : List (String × Schema)} {x : String} {s : Schema}
    (h : schemas.entries = pre ++ (x, s) :: post) :
    schemas.keys = pre.map Prod.fst ++ x :: post.map Prod.fst := by
  unfold Table.keys
  rw [h, List.map_append, List.map_cons]

theorem get?_of_entries {pre post : List (String × Schema)} {x : String} {s : Schema}
    (h : schemas.entries = pre ++ (x, s) :: post) : schemas.get? x = some s :=
  Table.get?_of_mem (h ▸ List.mem_append_right _ List.mem_cons_self)

/-- The first pass succeeds and is a pass. -/
theorem firstPass_stage (hg : Graph.ofSchemas schemas = .ok g) :
    ∃ p, firstPass schemas g = .ok p ∧ Stage schemas g 1 p := by
  have hstart : Midway schemas g 0 [] Table.empty [] := by
    refine ⟨?_, by simp, ?_, by simp⟩
    · intro x s entry _ hentry
      cases hentry
    · intro x _ _
      refine iff_of_false ?_ (not_finalAfter_zero x)
      rintro ⟨entry, hentry, _⟩
      cases hentry
  have hrun : ∃ p, firstPass schemas g = .ok p ∧ p.table.keys = schemas.entries.map Prod.fst ∧
      Midway schemas g 0 (schemas.entries.map Prod.fst) p.table p.pending := by
    unfold firstPass
    refine foldlM_induction (fun pre (p : Progress) => p.table.keys = pre.map Prod.fst ∧
      Midway schemas g 0 (pre.map Prod.fst) p.table p.pending) ⟨rfl, hstart⟩ ?_
    rintro pre ⟨x, s⟩ post p hl ⟨hkeys, hmid⟩
    obtain ⟨entry, deferred, he, hmid'⟩ :=
      hmid.step hg (keys_of_entries hl) (get?_of_entries hl)
    refine ⟨_, bind_eq_ok.mpr ⟨_, he, rfl⟩, ?_, ?_⟩
    · have hx : x ∉ p.table.keys := hkeys ▸ Midway.not_mem_done (keys_of_entries hl)
      simp only
      rw [Table.keys_insert_of_not_mem _ _ hx, hkeys, List.map_append]
      rfl
    · rw [List.map_append]
      exact hmid'
  obtain ⟨p, hp, hkeys, hmid⟩ := hrun
  exact ⟨p, hp, hmid.stage hkeys⟩

/-- Between passes the next one has come to no name yet. -/
theorem Stage.midway {passes : Nat} {p : Progress} (h : Stage schemas g passes p) :
    Midway schemas g passes [] p.table [] :=
  ⟨h.faithful, by simp, fun x hx _ => h.settled_iff x hx, by simp⟩

/-- A retry pass succeeds and is a pass, though it expands only the entries that wait. -/
theorem retryPass_stage (hg : Graph.ofSchemas schemas = .ok g) {passes : Nat} {before : Progress}
    (h : Stage schemas g passes before) :
    ∃ p changed, retryPass schemas g before = .ok (p, changed) ∧ Stage schemas g (passes + 1) p := by
  have hrun : ∃ r, retryPass schemas g before = .ok r ∧ r.1.table.keys = schemas.keys ∧
      Midway schemas g passes (schemas.entries.map Prod.fst) r.1.table r.1.pending := by
    unfold retryPass
    rw [List.foldlM_filter]
    refine foldlM_induction (fun pre (r : Progress × Bool) => r.1.table.keys = schemas.keys ∧
      Midway schemas g passes (pre.map Prod.fst) r.1.table r.1.pending) ⟨h.keys, h.midway⟩ ?_
    rintro pre ⟨x, s⟩ post ⟨p, changed⟩ hl ⟨hkeys, hmid⟩
    have hx : schemas.contains x = true := Table.contains_of_get? (get?_of_entries hl)
    rw [List.map_append]
    by_cases hwait : x ∈ before.pending
    · obtain ⟨entry, deferred, he, hmid'⟩ :=
        hmid.step hg (keys_of_entries hl) (get?_of_entries hl)
      have hmem : x ∈ p.table.keys := hkeys ▸ Table.contains_iff_mem_keys.mp hx
      have hkeys' : (p.table.insert x entry).keys = schemas.keys := by
        rw [Table.keys_insert_of_mem _ _ hmem, hkeys]
      simp only [List.contains_iff_mem.mpr hwait, if_true]
      by_cases hsame : p.table.get? x = some entry
      · refine ⟨_, bind_eq_ok.mpr ⟨_, he, if_pos hsame⟩, hkeys, ?_⟩
        rw [← Table.insert_eq_self hsame]
        exact hmid'
      · exact ⟨_, bind_eq_ok.mpr ⟨_, he, if_neg hsame⟩, hkeys', hmid'⟩
    · have hfinal : FinalAfter schemas g passes x := by
        by_contra hn
        exact hwait ((h.pending_iff x).mpr ⟨hx, hn⟩)
      refine ⟨(p, changed), ?_, hkeys, hmid.skip (keys_of_entries hl) hfinal⟩
      rw [if_neg (by simpa using hwait)]
      rfl
  obtain ⟨⟨p, changed⟩, hr, hkeys, hmid⟩ := hrun
  exact ⟨p, changed, hr, hmid.stage hkeys⟩

/-- A retry pass leaves only names waiting that waited before, and not all of them. -/
theorem Stage.pending_shrinks (hg : Graph.ofSchemas schemas = .ok g) {passes : Nat} {p q : Progress}
    (hp : Stage schemas g passes p) (hq : Stage schemas g (passes + 1) q) (hne : p.pending ≠ []) :
    q.pending ⊆ p.pending ∧ ¬ p.pending ⊆ q.pending := by
  constructor
  · intro x hx
    obtain ⟨hc, hn⟩ := (hq.pending_iff x).mp hx
    exact (hp.pending_iff x).mpr ⟨hc, fun h => hn (h.mono (Nat.le_succ _))⟩
  · obtain ⟨x, hx⟩ := List.exists_mem_of_ne_nil _ hne
    obtain ⟨hc, hn⟩ := (hp.pending_iff x).mp hx
    obtain ⟨z, hz, hnot, hfinal⟩ := exists_newly_final hg hc hn
    intro hall
    exact ((hq.pending_iff z).mp (hall ((hp.pending_iff z).mpr ⟨hz, hnot⟩))).2 hfinal

/-- So a retry pass is never the last one for want of progress. -/
theorem Stage.pending_ne (hg : Graph.ofSchemas schemas = .ok g) {passes : Nat} {p q : Progress}
    (hp : Stage schemas g passes p) (hq : Stage schemas g (passes + 1) q) (hne : p.pending ≠ []) :
    q.pending ≠ p.pending :=
  fun heq => (hp.pending_shrinks hg hq hne).2 (heq ▸ List.Subset.refl _)

/-- If every retry pass that the loop may make keeps the invariant and changes which names wait, the
loop makes all of them, unless it stops for want of names that wait. -/
theorem retry_induction (I : Nat → Progress → Prop) {limit : Nat}
    (step : ∀ made p, made < limit → I made p → p.pending ≠ [] → ∃ q changed,
      retryPass schemas g p = .ok (q, changed) ∧ q.pending ≠ p.pending ∧ I (made + 1) q) :
    ∀ (more made : Nat) (p : Progress), made + more = limit → I made p →
      ∃ q reports, retry schemas g more p = .ok (q, reports) ∧ I (made + reports.length) q ∧
        made + reports.length ≤ limit ∧ (made + reports.length = limit ∨ q.pending = [])
  | 0, made, p, hlimit, h => ⟨p, [], rfl, h, hlimit.le, Or.inl hlimit⟩
  | more + 1, made, p, hlimit, h => by
      rw [retry]
      by_cases hempty : p.pending.isEmpty
      · exact ⟨p, [], if_pos hempty, h, by simp only [List.length_nil]; omega,
          Or.inr (List.isEmpty_iff.mp hempty)⟩
      · obtain ⟨q, changed, hq, hne, hI⟩ :=
          step made p (by omega) h fun he => hempty (List.isEmpty_iff.mpr he)
        obtain ⟨r, reports, hr, hlast, hle, hstop⟩ :=
          retry_induction I step more (made + 1) q (by omega) hI
        have hmade : made + (reports.length + 1) = made + 1 + reports.length := by omega
        refine ⟨r, ⟨p.pending.length, q.pending.length⟩ :: reports, ?_, ?_⟩
        · rw [if_neg hempty]
          refine bind_eq_ok.mpr ⟨_, hq, ?_⟩
          simp only
          rw [if_neg (by simp [hne])]
          exact bind_eq_ok.mpr ⟨_, hr, rfl⟩
        · rw [List.length_cons, hmade]
          exact ⟨hlast, hle, hstop⟩

/-- The loop makes all the passes it may, unless it stops for want of names that wait. -/
theorem retry_stage (hg : Graph.ofSchemas schemas = .ok g) (more passes : Nat) (p : Progress)
    (h : Stage schemas g passes p) : ∃ q reports made, retry schemas g more p = .ok (q, reports) ∧
      made ≤ more ∧ Stage schemas g (passes + made) q ∧ (made = more ∨ q.pending = []) := by
  have step : ∀ made p, made < more → Stage schemas g (passes + made) p → p.pending ≠ [] →
      ∃ q changed, retryPass schemas g p = .ok (q, changed) ∧ q.pending ≠ p.pending ∧
        Stage schemas g (passes + (made + 1)) q := by
    intro made p _ hp hwaiting
    obtain ⟨q, changed, hq, hstage⟩ := retryPass_stage hg hp
    exact ⟨q, changed, hq, hp.pending_ne hg hstage hwaiting, hstage⟩
  obtain ⟨q, reports, hq, hlast, hle, hstop⟩ :=
    retry_induction (fun made => Stage schemas g (passes + made)) step more 0 p (Nat.zero_add _) h
  rw [Nat.zero_add] at hlast hle hstop
  exact ⟨q, reports, reports.length, hq, hle, hlast, hstop⟩

/-- Resolution succeeds on every table whose references are valid, and ends as far as the passes it
may make can bring it. -/
theorem resolveSchemas_stage (hg : Graph.ofSchemas schemas = .ok g) :
    ∃ r, resolveSchemas schemas = .ok r ∧ r.table.keys = schemas.keys ∧
      Faithful schemas g r.table ∧ ∀ x, schemas.contains x = true →
        (Settled schemas r.table x ↔ FinalAfter schemas g (maxRetryPasses + 1) x) := by
  obtain ⟨p, hp, hfirst⟩ := firstPass_stage hg
  obtain ⟨q, reports, made, hq, hmade, hlast, hstop⟩ := retry_stage hg maxRetryPasses 1 p hfirst
  refine ⟨⟨q.table, reports⟩, ?_, hlast.keys, hlast.faithful, ?_⟩
  · unfold resolveSchemas
    exact bind_eq_ok.mpr ⟨g, hg, bind_eq_ok.mpr ⟨p, hp, bind_eq_ok.mpr ⟨_, hq, rfl⟩⟩⟩
  · intro x hx
    rw [hlast.settled_iff x hx]
    rcases hstop with rfl | hnone
    · rw [Nat.add_comm]
    · have hfinal : FinalAfter schemas g (1 + made) x := by
        by_contra hn
        have hwait := (hlast.pending_iff x).mpr ⟨hx, hn⟩
        rw [hnone] at hwait
        cases hwait
      exact iff_of_true hfinal (hfinal.mono (by omega))

end ApiTypes
