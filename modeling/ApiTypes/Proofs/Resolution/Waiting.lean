import ApiTypes.Proofs.Resolution.Naming
import ApiTypes.Proofs.Resolution.Retrying

/-! # Which names wait

After every pass the names that wait are those whose entries hold a declared name that is not
resolved (`AfterPasses.mem_pending_iff`).  A name that does not wait rests: its entry is the one of
the resolved table, no later pass makes it wait again (`AfterPasses.rests`), and none asks what would
be made of it (`retryPassBy_congr`).

Main definitions: `Descriptor.Mentions`, `retryPassBy`. -/

namespace ApiTypes

/-! ### Names that are not resolved -/

/-- The name stands unresolved in the descriptor, at any depth. -/
inductive Descriptor.Mentions : Descriptor → String → Prop
  | pending (name : String) : Mentions (.pending name) name
  | item {item : Descriptor} {name : String} : Mentions item name → Mentions (.array item) name
  | field {fields : List Field} {f : Field} {name : String} :
      f ∈ fields → Mentions f.type name → Mentions (.object fields) name

mutual
theorem Descriptor.mentions_of_mem {name : String} : ∀ d : Descriptor,
    name ∈ d.pendingTargets → d.Mentions name
  | .pending _, h => List.mem_singleton.mp h ▸ .pending _
  | .array item, h => .item (item.mentions_of_mem h)
  | .object fields, h => by
      obtain ⟨f, hf, hname⟩ := mentions_of_mem_fields fields h
      exact .field hf hname
  | .primitive _, h | .enumeration .., h | .record, h | .any, h => nomatch h

theorem mentions_of_mem_fields {name : String} : ∀ fields : List Field,
    name ∈ Descriptor.pendingInFields fields → ∃ f ∈ fields, f.type.Mentions name
  | ⟨key, type, description, required, origin, default⟩ :: rest, h => by
      rcases List.mem_append.mp h with h | h
      · exact ⟨_, List.mem_cons_self, type.mentions_of_mem h⟩
      · obtain ⟨f, hf, hname⟩ := mentions_of_mem_fields rest h
        exact ⟨f, List.mem_cons_of_mem _ hf, hname⟩
end

theorem Descriptor.mem_pendingTargets_iff {d : Descriptor} {name : String} :
    name ∈ d.pendingTargets ↔ d.Mentions name := by
  constructor
  · exact d.mentions_of_mem
  · intro h
    induction h with
    | pending name => exact List.mem_singleton_self name
    | item _ ih => exact ih
    | field hf _ ih =>
        rw [pendingTargets, pendingInFields_eq]
        exact List.mem_flatMap_of_mem hf ih

/-! ### What a retry pass asks for -/

/-- A retry pass in which the entries are made in the given way. -/
def retryPassBy (make : Building → String → Schema → Except InvalidRef (ResolvedSchema × Bool))
    (schemas : Table Schema) (graph : Graph) (before : Progress) :
    Except InvalidRef (Progress × Bool) :=
  (schemas.entries.filter fun e => before.pending.contains e.1).foldlM
    (fun (p, changed) (name, s) => do
      let (resolved, deferred) ← make ⟨schemas, graph, p.table⟩ name s
      let pending := if deferred then p.pending ++ [name] else p.pending
      if p.table.get? name = some resolved then return ({ p with pending }, changed)
      else return ({ table := p.table.insert name resolved, pending }, true))
    ({ table := before.table }, false)

theorem retryPassBy_entry (schemas : Table Schema) (g : Graph) (before : Progress) :
    retryPassBy Building.entry schemas g before = retryPass schemas g before := rfl

/-- Only the entries of names that wait are made. -/
theorem retryPassBy_congr {schemas : Table Schema} {g : Graph} {before : Progress}
    {make make' : Building → String → Schema → Except InvalidRef (ResolvedSchema × Bool)}
    (h : ∀ b name s, name ∈ before.pending → make b name s = make' b name s) :
    retryPassBy make schemas g before = retryPassBy make' schemas g before := by
  unfold retryPassBy
  refine foldlM_congr ?_ _
  rintro ⟨p, changed⟩ ⟨name, s⟩ hmem
  have hwaits : name ∈ before.pending := by simpa using (List.mem_filter.mp hmem).2
  dsimp only
  rw [h _ name s hwaits]

/-! ### States of a run -/

section
variable {schemas : Table Schema} {g : Graph} {passes later : Nat} {p q : Progress} {x : String}

theorem AfterPasses.unique (hp : AfterPasses schemas g passes p)
    (hq : AfterPasses schemas g passes q) : p = q := by
  induction hp generalizing q with
  | first made =>
      cases hq with
      | first made' => exact Except.ok.inj (made.symm.trans made')
  | retried _ _ _ made ih =>
      cases hq with
      | retried before' _ _ made' =>
          obtain rfl := ih before'
          exact (Prod.mk.inj (Except.ok.inj (made.symm.trans made'))).1

/-- Before each pass a name waited, and there was room for one more. -/
theorem AfterPasses.exists_before (h : AfterPasses schemas g later q) (hlt : passes < later) :
    ∃ p, AfterPasses schemas g passes p ∧ p.pending ≠ [] ∧ passes < maxRetryPasses := by
  induction h with
  | first _ => cases hlt
  | @retried made p _ _ before waiting room _ ih =>
      rcases Nat.lt_succ_iff_lt_or_eq.mp hlt with hlt | rfl
      · exact ih hlt
      · exact ⟨p, before, waiting, room⟩

variable (hg : Graph.ofSchemas schemas = .ok g)
include hg

/-- The names that wait are those whose entries hold a declared name that is not resolved. -/
theorem AfterPasses.mem_pending_iff (h : AfterPasses schemas g passes p) :
    x ∈ p.pending ↔ ∃ entry, p.table.get? x = some entry ∧ entry.type.Awaits schemas := by
  have hstage := h.stage hg
  rw [hstage.pending_iff]
  constructor
  · rintro ⟨hx, hnot⟩
    obtain ⟨entry, hentry⟩ := Table.exists_get?_of_keys hstage.keys hx
    refine ⟨entry, hentry, ?_⟩
    by_contra hquiet
    exact hnot ((hstage.settled_iff x hx).mp ⟨entry, hentry, hquiet⟩)
  · rintro ⟨entry, hentry, hawaits⟩
    have hx : schemas.contains x = true := by
      rw [Table.contains_iff_mem_keys, ← hstage.keys, ← Table.contains_iff_mem_keys]
      exact Table.contains_of_get? hentry
    refine ⟨hx, fun hfinal => ?_⟩
    exact (settled_iff_of_get? hentry).mp ((hstage.settled_iff x hx).mpr hfinal) hawaits

/-- A name that does not wait keeps its entry and does not wait later. -/
theorem AfterPasses.rests (hp : AfterPasses schemas g passes p)
    (hq : AfterPasses schemas g later q) (hle : passes ≤ later) (hx : x ∉ p.pending) :
    x ∉ q.pending ∧ q.table.get? x = p.table.get? x := by
  induction hq with
  | first made =>
      obtain rfl := Nat.le_zero.mp hle
      obtain rfl := hp.unique (.first made)
      exact ⟨hx, rfl⟩
  | @retried made q q' _ before waiting room hpass ih =>
      rcases Nat.le_succ_iff.mp hle with hle | rfl
      · obtain ⟨hquiet, hsame⟩ := ih hle
        have hafter := before.retried waiting room hpass
        have hsub := ((before.stage hg).pending_shrinks hg (hafter.stage hg) waiting).1
        have hkept : q'.table.get? x = q.table.get? x :=
          sweep_get?_of_not_waiting (sweep_of_retryPass hpass) (by simpa using hquiet)
        exact ⟨fun h => hquiet (hsub h), hkept.trans hsame⟩
      · obtain rfl := hp.unique (before.retried waiting room hpass)
        exact ⟨hx, rfl⟩

end

/-- After the first pass and after every retry pass, a name waits exactly if its entry holds a
declared name that is not resolved.  Of a name that does not wait, the entry is that of the resolved
table, and in every later pass it still does not wait and nothing hangs on what would be made of
it. -/
theorem mem_pending_iff_mentions {schemas : Table Schema} {r : Resolution}
    (h : resolveSchemas schemas = .ok r) : ∃ g, Graph.ofSchemas schemas = .ok g ∧
    (∃ last, AfterPasses schemas g r.passes.length last ∧ last.table = r.table) ∧
    ∀ passes p, AfterPasses schemas g passes p →
      (∀ x, x ∈ p.pending ↔ ∃ entry, p.table.get? x = some entry ∧
        ∃ name, entry.type.Mentions name ∧ schemas.contains name = true) ∧
      ∀ x, x ∉ p.pending → r.table.get? x = p.table.get? x ∧
        ∀ later q, passes ≤ later → AfterPasses schemas g later q → x ∉ q.pending ∧
          ∀ make, (∀ b name s, name ≠ x → make b name s = Building.entry b name s) →
            retryPassBy make schemas g q = retryPass schemas g q := by
  obtain ⟨g, hg, _, last, hlast, htable, hstop⟩ := retryPasses_progress h
  refine ⟨g, hg, ⟨last, hlast, htable⟩, ?_⟩
  intro passes p hp
  constructor
  · intro x
    rw [hp.mem_pending_iff hg]
    unfold Descriptor.Awaits
    simp only [Descriptor.mem_pendingTargets_iff]
  intro x hx
  have hle : passes ≤ r.passes.length := by
    by_contra hlt
    obtain ⟨before, hbefore, hwaiting, hroom⟩ := hp.exists_before (Nat.lt_of_not_le hlt)
    obtain rfl := hbefore.unique hlast
    exact hstop.elim hwaiting hroom.ne
  refine ⟨htable ▸ (hp.rests hg hlast hle hx).2, ?_⟩
  intro later q hlater hq
  have hquiet := (hp.rests hg hq hlater hx).1
  refine ⟨hquiet, fun make hmake => ?_⟩
  rw [← retryPassBy_entry]
  refine retryPassBy_congr fun b name s hwaits => hmake b name s ?_
  rintro rfl
  exact hquiet hwaits

/-- In a relay of three names the last one holds a name that nothing declares, and does not wait; the
one before it waits for a pass, and the first for two. -/
theorem relay_waiting : ∃ r g p q, resolveSchemas (relay 3) = .ok r ∧
    Graph.ofSchemas (relay 3) = .ok g ∧
    AfterPasses (relay 3) g 0 p ∧ AfterPasses (relay 3) g 1 q ∧
    p.pending = ["a", "aa"] ∧ q.pending = ["a"] ∧
    (∃ entry, p.table.get? "aa" = some entry ∧
      ∃ name, entry.type.Mentions name ∧ (relay 3).contains name = true) ∧
    r.table.get? "aa" = q.table.get? "aa" ∧ r.table.get? "aaa" = p.table.get? "aaa" ∧
    ∀ make, (∀ b name s, name ≠ "aaa" → make b name s = Building.entry b name s) →
      retryPassBy make (relay 3) g p = retryPass (relay 3) g p := by
  have hstates : ((Graph.ofSchemas (relay 3)).toOption.bind fun g =>
      (firstPass (relay 3) g).toOption.bind fun p =>
        (retryPass (relay 3) g p).toOption.map fun q => (p.pending, q.1.pending)) =
      some (["a", "aa"], ["a"]) := by decide +kernel
  obtain ⟨g, hg, hstates⟩ := Option.bind_eq_some_iff.mp hstates
  obtain ⟨p, hp, hstates⟩ := Option.bind_eq_some_iff.mp hstates
  obtain ⟨⟨q, changed⟩, hq, hstates⟩ := Option.map_eq_some_iff.mp hstates
  obtain ⟨hwaiting, hstill⟩ : p.pending = ["a", "aa"] ∧ q.pending = ["a"] := Prod.mk.inj hstates
  have hg := toOption_eq_some_iff.mp hg
  have hp := AfterPasses.first (toOption_eq_some_iff.mp hp)
  have hq := hp.retried (by simp [hwaiting]) (by decide) (toOption_eq_some_iff.mp hq)
  obtain ⟨r, hr, _⟩ := resolveSchemas_stage hg
  obtain ⟨g', hg', _, hexact⟩ := mem_pending_iff_mentions hr
  obtain rfl := Except.ok.inj (hg.symm.trans hg')
  obtain ⟨hmentions, hrests⟩ := hexact 0 p hp
  obtain ⟨hfinal, hlater⟩ := hrests "aaa" (by simp [hwaiting])
  refine ⟨r, g, p, q, hr, hg, hp, hq, hwaiting, hstill, ?_, ?_, hfinal, ?_⟩
  · exact (hmentions "aa").mp (by simp [hwaiting])
  · exact ((hexact 1 q hq).2 "aa" (by simp [hstill])).1
  · exact (hlater 0 p (Nat.le_refl 0) hp).2

end ApiTypes
