import ApiTypes.Proofs.Resolution.Passes

/-! # Rounds

The first pass and the retry passes are sweeps over the names that wait, and a sweep in which none
waits changes nothing.  So the loop, which stops when none waits, ends where exactly so many sweeps
end as it may make (`resolveSchemas_rounds`), and two runs can be compared sweep by sweep.

Main definitions: `visit`, `sweep`, `rounds`. -/

namespace ApiTypes

variable {schemas : Table Schema} {g : Graph}

/-- Make the entry of one name. -/
def visit (schemas : Table Schema) (g : Graph) (p : Progress) (e : String × Schema) :
    Except InvalidRef Progress := do
  let (resolved, deferred) ← Building.entry ⟨schemas, g, p.table⟩ e.1 e.2
  return {
    table := p.table.insert e.1 resolved
    pending := if deferred then p.pending ++ [e.1] else p.pending }

/-- Make the entries of the names that wait, in the order of declaration. -/
def sweep (schemas : Table Schema) (g : Graph) (waits : String → Bool)
    (table : Table ResolvedSchema) : Except InvalidRef Progress :=
  (schemas.entries.filter fun e => waits e.1).foldlM (visit schemas g) { table }

/-- So many sweeps, each over the names that wait after the one before. -/
def rounds (schemas : Table Schema) (g : Graph) : Nat → Progress → Except InvalidRef Progress
  | 0, p => .ok p
  | n + 1, p => do
    let q ← sweep schemas g p.pending.contains p.table
    rounds schemas g n q

/-! ### Passes as sweeps -/

theorem firstPass_eq_sweep :
    firstPass schemas g = sweep schemas g (fun _ => true) Table.empty := by
  unfold sweep
  rw [List.filter_eq_self.mpr (by simp)]
  rfl

theorem sweep_of_retryPass {p q : Progress} {changed : Bool}
    (h : retryPass schemas g p = .ok (q, changed)) :
    sweep schemas g p.pending.contains p.table = .ok q := by
  refine Stepwise.Yields.foldlM (m := Except InvalidRef) h
    (fun pre state => pre.foldlM (visit schemas g) { table := p.table } = .ok state.1) rfl ?_
  rintro pre ⟨name, s⟩ post ⟨before, _⟩ ⟨after, _⟩ _ hpre hstep
  obtain ⟨⟨resolved, deferred⟩, hentry, hafter⟩ := bind_eq_ok.mp hstep
  rw [List.foldlM_append]
  refine bind_eq_ok.mpr ⟨before, hpre, bind_eq_ok.mpr ⟨_, bind_eq_ok.mpr ⟨_, hentry, rfl⟩, ?_⟩⟩
  dsimp only at hafter
  split at hafter
  · next hsame =>
    obtain ⟨rfl, _⟩ := Prod.mk.inj (Except.ok.inj hafter)
    rw [Table.insert_eq_self hsame]
    rfl
  · obtain ⟨rfl, _⟩ := Prod.mk.inj (Except.ok.inj hafter)
    rfl

theorem sweep_of_none_waiting {p : Progress} (h : p.pending = []) :
    sweep schemas g p.pending.contains p.table = .ok p := by
  obtain ⟨table, pending⟩ := p
  obtain rfl : pending = [] := h
  unfold sweep
  rw [List.filter_eq_nil_iff.mpr (by simp)]
  rfl

theorem rounds_of_none_waiting {p : Progress} (h : p.pending = []) :
    ∀ n, rounds schemas g n p = .ok p
  | 0 => rfl
  | n + 1 => bind_eq_ok.mpr ⟨p, sweep_of_none_waiting h, rounds_of_none_waiting h n⟩

/-! ### The loop as rounds -/

section loop
variable (hg : Graph.ofSchemas schemas = .ok g)
include hg

theorem Stage.sweep {passes : Nat} {p : Progress} (h : Stage schemas g passes p) :
    ∃ q, sweep schemas g p.pending.contains p.table = .ok q ∧ Stage schemas g (passes + 1) q := by
  obtain ⟨q, changed, hq, hstage⟩ := retryPass_stage hg h
  exact ⟨q, sweep_of_retryPass hq, hstage⟩

/-- The loop never stops for want of progress, so what it leaves out are sweeps that change
nothing. -/
theorem rounds_of_retry : ∀ (more passes : Nat) {p q : Progress} {reports : List PassReport},
    Stage schemas g passes p → retry schemas g more p = .ok (q, reports) →
    rounds schemas g more p = .ok q
  | 0, _, p, q, reports, _, h => by
      obtain ⟨rfl, _⟩ := Prod.mk.inj (Except.ok.inj h)
      rfl
  | more + 1, passes, p, q, reports, hstage, h => by
      rw [retry] at h
      split at h
      · next hempty =>
        obtain ⟨rfl, _⟩ := Prod.mk.inj (Except.ok.inj h)
        exact rounds_of_none_waiting (List.isEmpty_iff.mp hempty) (more + 1)
      · next hwaiting =>
        obtain ⟨p', changed, hpass, hnext⟩ := retryPass_stage hg hstage
        have hne : p'.pending ≠ p.pending :=
          hstage.pending_ne hg hnext fun he => hwaiting (List.isEmpty_iff.mpr he)
        obtain ⟨_, hpass', h⟩ := bind_eq_ok.mp h
        obtain rfl := Except.ok.inj (hpass.symm.trans hpass')
        dsimp only at h
        rw [if_neg (by simp [hne])] at h
        obtain ⟨⟨q', _⟩, hretry, h⟩ := bind_eq_ok.mp h
        obtain ⟨rfl, _⟩ := Prod.mk.inj (Except.ok.inj h)
        exact bind_eq_ok.mpr ⟨p', sweep_of_retryPass hpass,
          rounds_of_retry more (passes + 1) hnext hretry⟩

/-- Resolution is one sweep over all names, and then as many sweeps as there may be passes. -/
theorem resolveSchemas_rounds : ∃ first last reports, Stage schemas g 1 first ∧
    sweep schemas g (fun _ => true) Table.empty = .ok first ∧
    rounds schemas g maxRetryPasses first = .ok last ∧
    resolveSchemas schemas = .ok ⟨last.table, reports⟩ := by
  obtain ⟨first, hfirst, hstage⟩ := firstPass_stage hg
  obtain ⟨last, reports, made, hlast, _⟩ := retry_stage hg maxRetryPasses 1 first hstage
  refine ⟨first, last, reports, hstage, firstPass_eq_sweep ▸ hfirst,
    rounds_of_retry hg maxRetryPasses 1 hstage hlast, ?_⟩
  unfold resolveSchemas
  exact bind_eq_ok.mpr ⟨g, hg, bind_eq_ok.mpr ⟨first, hfirst, bind_eq_ok.mpr ⟨_, hlast, rfl⟩⟩⟩

end loop

end ApiTypes
