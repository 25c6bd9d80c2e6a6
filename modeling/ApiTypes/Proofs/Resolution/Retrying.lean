import ApiTypes.Proofs.Resolution.Outcome

/-! # Retry passes make progress

Some name that waits looks up none that waits: lookups lead down the components of the graph.  So
every retry pass settles a name and makes none wait that did not (`Stage.pending_shrinks`), the test
for a pass that changes nothing never ends the loop, and what ends it is that no name waits or that
all passes are made (`retryPasses_progress`).

Main definitions: `AfterPasses`. -/

namespace ApiTypes

/-- What so many retry passes come to, each made while names wait and whether it changed anything
or not. -/
inductive AfterPasses (schemas : Table Schema) (g : Graph) : Nat → Progress → Prop
  | first {p : Progress} (made : firstPass schemas g = .ok p) : AfterPasses schemas g 0 p
  | retried {passes : Nat} {p q : Progress} {changed : Bool} (before : AfterPasses schemas g passes p)
      (waiting : p.pending ≠ []) (room : passes < maxRetryPasses)
      (made : retryPass schemas g p = .ok (q, changed)) : AfterPasses schemas g (passes + 1) q

variable {schemas : Table Schema} {g : Graph}

section
variable (hg : Graph.ofSchemas schemas = .ok g)
include hg

theorem AfterPasses.stage {passes : Nat} {p : Progress} (h : AfterPasses schemas g passes p) :
    Stage schemas g (passes + 1) p := by
  induction h with
  | first made =>
      obtain ⟨p', hp', hstage⟩ := firstPass_stage hg
      obtain rfl := Except.ok.inj (hp'.symm.trans made)
      exact hstage
  | retried _ _ _ made ih =>
      obtain ⟨q', changed', hq', hstage⟩ := retryPass_stage hg ih
      obtain ⟨rfl, _⟩ := Prod.mk.inj (Except.ok.inj (hq'.symm.trans made))
      exact hstage

/-- The loop makes all retry passes that it may, unless it stops where no name waits. -/
theorem exists_afterPasses {first : Progress} (h : firstPass schemas g = .ok first) :
    ∃ last reports, retry schemas g maxRetryPasses first = .ok (last, reports) ∧
      AfterPasses schemas g reports.length last ∧
      (reports.length = maxRetryPasses ∨ last.pending = []) := by
  have step : ∀ passes p, passes < maxRetryPasses → AfterPasses schemas g passes p →
      p.pending ≠ [] → ∃ q changed, retryPass schemas g p = .ok (q, changed) ∧
        q.pending ≠ p.pending ∧ AfterPasses schemas g (passes + 1) q := by
    intro passes p hroom hp hwaiting
    obtain ⟨q, changed, hq, hstage⟩ := retryPass_stage hg (hp.stage hg)
    exact ⟨q, changed, hq, (hp.stage hg).pending_ne hg hstage hwaiting,
      hp.retried hwaiting hroom hq⟩
  obtain ⟨last, reports, hlast, hafter, _, hstop⟩ :=
    retry_induction (AfterPasses schemas g) step maxRetryPasses 0 first (Nat.zero_add _) (.first h)
  rw [Nat.zero_add] at hafter hstop
  exact ⟨last, reports, hlast, hafter, hstop⟩

end

/-- Every retry pass leaves strictly fewer names waiting, so no pass is taken for one that changes
nothing.  The loop ends where no name waits, or else all passes are made. -/
theorem retryPasses_progress {r : Resolution} (h : resolveSchemas schemas = .ok r) :
    ∃ g, Graph.ofSchemas schemas = .ok g ∧
      (∀ passes p, AfterPasses schemas g passes p → p.pending ≠ [] →
        ∃ q changed, retryPass schemas g p = .ok (q, changed) ∧
          q.pending ⊆ p.pending ∧ ¬ p.pending ⊆ q.pending ∧
          (!changed && q.pending == p.pending) = false) ∧
      ∃ last, AfterPasses schemas g r.passes.length last ∧ last.table = r.table ∧
        (last.pending = [] ∨ r.passes.length = maxRetryPasses) := by
  obtain ⟨g, hg⟩ := ofSchemas_of_resolveSchemas h
  refine ⟨g, hg, ?_, ?_⟩
  · intro passes p hp hwaiting
    obtain ⟨q, changed, hq, hstage⟩ := retryPass_stage hg (hp.stage hg)
    obtain ⟨hsub, hnot⟩ := (hp.stage hg).pending_shrinks hg hstage hwaiting
    have hne : q.pending ≠ p.pending := fun he => hnot (he ▸ List.Subset.refl _)
    exact ⟨q, changed, hq, hsub, hnot, by simp [hne]⟩
  · obtain ⟨first, hfirst, _⟩ := firstPass_stage hg
    obtain ⟨last, reports, hlast, hafter, hstop⟩ := exists_afterPasses hg hfirst
    have hr : resolveSchemas schemas = .ok ⟨last.table, reports⟩ := by
      unfold resolveSchemas
      exact bind_eq_ok.mpr ⟨g, hg, bind_eq_ok.mpr ⟨first, hfirst, bind_eq_ok.mpr ⟨_, hlast, rfl⟩⟩⟩
    obtain rfl := Except.ok.inj (h.symm.trans hr)
    exact ⟨last, hafter, rfl, hstop.symm⟩

/-- The relay of eighteen names takes all passes, and each of them settles a name. -/
theorem relay_progress : ∃ r g last, resolveSchemas (relay 18) = .ok r ∧
    Graph.ofSchemas (relay 18) = .ok g ∧ r.passes.length = maxRetryPasses ∧
    AfterPasses (relay 18) g maxRetryPasses last ∧ last.table = r.table ∧
    (∃ p q changed, AfterPasses (relay 18) g 0 p ∧ p.pending.length = 17 ∧
      retryPass (relay 18) g p = .ok (q, changed) ∧
      q.pending ⊆ p.pending ∧ ¬ p.pending ⊆ q.pending) := by
  have hpasses : ((resolveSchemas (relay 18)).toOption.map fun r => r.passes.length) =
      some maxRetryPasses := by decide +kernel
  have hfirst : ((Graph.ofSchemas (relay 18)).toOption.bind fun g =>
      (firstPass (relay 18) g).toOption.map fun p => p.pending.length) = some 17 := by
    decide +kernel
  obtain ⟨r, hr, hpasses⟩ := Option.map_eq_some_iff.mp hpasses
  have hr := toOption_eq_some_iff.mp hr
  obtain ⟨g, hg, hshrinks, last, hlast, htable, _⟩ := retryPasses_progress hr
  rw [hg] at hfirst
  obtain ⟨p, hp, hlength⟩ := Option.map_eq_some_iff.mp hfirst
  have hp := AfterPasses.first (toOption_eq_some_iff.mp hp)
  obtain ⟨q, changed, hq, hsub, hnot, _⟩ := hshrinks 0 p hp (by rintro he; simp [he] at hlength)
  exact ⟨r, g, last, hr, hg, hpasses, hpasses ▸ hlast, htable, p, q, changed, hp, hlength, hq, hsub,
    hnot⟩

end ApiTypes
