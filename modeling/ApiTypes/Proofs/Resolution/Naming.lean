import ApiTypes.Proofs.Resolution.Locality

/-! # Naming a schema

A schema may be declared under a name of its own, after everything else.  Nothing else changes, and
the entry of the new name is what the finished table makes of the schema (`resolved_as_entry`), also
where the passes ran out: the new name is the last one of every pass that makes its entry, and a pass
that does not make it changes nothing that it follows (`Current.sweep`).

Main definitions: `Schema.RefersTo`, `Graph.Unreferenced`, `Current`. -/

namespace ApiTypes

/-- The schema refers to the name. -/
def Schema.RefersTo (s : Schema) (name : String) : Prop :=
  ∃ found, s.references = .ok found ∧ name ∈ found

instance (s : Schema) (name : String) : Decidable (s.RefersTo name) :=
  decidable_of_iff (∃ found ∈ s.references.toOption, name ∈ found) <| by
    simp only [Option.mem_def, toOption_eq_some_iff]
    rfl

/-- No declared name has an edge to the name. -/
def Graph.Unreferenced (g : Graph) (name : String) : Prop := ∀ other, ¬ g.edges.Adjacent other name

variable {schemas : Table Schema} {g : Graph} {name : String} {s : Schema}

/-! ### The entry of a name that nothing refers to -/

section unreferenced
variable (hg : Graph.ofSchemas schemas = .ok g) (hun : g.Unreferenced name)
include hg hun

theorem Graph.Unreferenced.reachesAny (other : String) : g.reachesAny other [name] = false := by
  rw [Bool.eq_false_iff, ne_eq, reachesAny_eq_true_iff hg]
  rintro ⟨o, ho, hreach⟩
  obtain rfl := List.mem_singleton.mp ho
  cases hreach with
  | single hedge => exact hun _ hedge
  | tail _ hedge => exact hun _ hedge

variable (hs : schemas.get? name = some s)
include hs

theorem Graph.Unreferenced.ne_of_follows {n : String} (h : s.Follows n) : n ≠ name := by
  rintro rfl
  exact hun _ (h.mem_references (ofSchemas_targets hg hs))

theorem Graph.Unreferenced.looksUp {n : String} (h : s.Follows n)
    (hn : schemas.contains n = true) : LooksUp schemas g name n :=
  ⟨s, hs, [name], h.visits [name], by simpa using hun.ne_of_follows hg hs h, hn,
    hun.reachesAny hg n⟩

/-- What the schema follows is asked of the table, where it is declared. -/
theorem Building.resolve_of_unreferenced (table : Table ResolvedSchema) {n : String}
    (h : s.Follows n) : (Building.lookup ⟨schemas, g, table⟩ name).resolve n =
      .ok (if schemas.contains n then Building.lookUp ⟨schemas, g, table⟩ n
        else { type := .pending n }) := by
  have hn : n ∉ [name] := by simpa using hun.ne_of_follows hg hs h
  cases ht : schemas.get? n with
  | none =>
      rw [if_neg (by simp [Table.contains, ht])]
      exact resolveAt_undeclared hn ht
  | some t =>
      rw [if_pos (Table.contains_of_get? ht)]
      exact resolveAt_apart hn ht (hun.reachesAny hg n)

/-- The entry depends on what the table says of the names followed. -/
theorem Building.entry_of_unreferenced {table table' : Table ResolvedSchema}
    (hsame : ∀ n, s.Follows n → table'.get? n = table.get? n) :
    Building.entry ⟨schemas, g, table'⟩ name s = Building.entry ⟨schemas, g, table⟩ name s := by
  have hresolve : ∀ n, s.Follows n →
      (Building.lookup ⟨schemas, g, table'⟩ name).resolve n =
        (Building.lookup ⟨schemas, g, table⟩ name).resolve n := by
    intro n h
    rw [resolve_of_unreferenced hg hun hs table' h, resolve_of_unreferenced hg hun hs table h]
    simp only [lookUp, hsame n h]
  have hdescription : ∀ n, s.Follows n →
      (Building.lookup ⟨schemas, g, table'⟩ name).description n =
        (Building.lookup ⟨schemas, g, table⟩ name).description n := by
    intro n h
    simp only [lookup, description, hsame n h]
  unfold entry
  rw [expand_congr hresolve hdescription, describe_congr hdescription]

end unreferenced

/-! ### An entry that later passes leave current -/

/-- The entry of the name is the one that the table gives it now. -/
def Current (schemas : Table Schema) (g : Graph) (table : Table ResolvedSchema) (name : String) :
    Prop :=
  ∃ s entry deferred, schemas.get? name = some s ∧ table.get? name = some entry ∧
    Building.entry ⟨schemas, g, table⟩ name s = .ok (entry, deferred)

theorem visit_get?_of_ne {p q : Progress} {e : String × Schema}
    (h : visit schemas g p e = .ok q) {n : String} (hn : n ≠ e.1) :
    q.table.get? n = p.table.get? n := by
  obtain ⟨_, _, h⟩ := bind_eq_ok.mp h
  obtain rfl := Except.ok.inj h
  exact (Table.get?_insert _ _ _ _).trans (if_neg hn)

theorem sweep_get?_of_not_waiting {waits : String → Bool} {table : Table ResolvedSchema}
    {q : Progress} (h : sweep schemas g waits table = .ok q) {n : String} (hn : waits n = false) :
    q.table.get? n = table.get? n := by
  refine Stepwise.Yields.foldlM (m := Except InvalidRef) h
    (fun _ p => p.table.get? n = table.get? n) rfl ?_
  intro pre e post p p' hl hp hstep
  have he : e ∈ schemas.entries.filter fun e => waits e.1 := by
    rw [hl]
    exact List.mem_append_right pre List.mem_cons_self
  refine (visit_get?_of_ne hstep ?_).trans hp
  rintro rfl
  simp [hn] at he

section current
variable (hg : Graph.ofSchemas schemas = .ok g) (hun : g.Unreferenced name)
include hg hun

theorem current_of_visit {p q : Progress} (hs : schemas.get? name = some s)
    (h : visit schemas g p (name, s) = .ok q) : Current schemas g q.table name := by
  have hsame : ∀ n, s.Follows n → q.table.get? n = p.table.get? n :=
    fun n hn => visit_get?_of_ne h (hun.ne_of_follows hg hs hn)
  obtain ⟨⟨entry, deferred⟩, hentry, hq⟩ := bind_eq_ok.mp h
  refine ⟨s, entry, deferred, hs, ?_, (Building.entry_of_unreferenced hg hun hs hsame).trans hentry⟩
  obtain rfl := Except.ok.inj hq
  exact (Table.get?_insert _ _ _ _).trans (if_pos rfl)

variable {before : List (String × Schema)} (hlast : schemas.entries = before ++ [(name, s)])
include hlast

/-- A sweep that makes the last entry makes it from the table that it ends with. -/
theorem current_of_sweep {waits : String → Bool} (hwaits : waits name = true)
    {table : Table ResolvedSchema} {q : Progress} (h : sweep schemas g waits table = .ok q) :
    Current schemas g q.table name := by
  have hmade : [(name, s)].filter (fun e => waits e.1) = [(name, s)] := by simp [hwaits]
  unfold sweep at h
  rw [hlast, List.filter_append, hmade, List.foldlM_append] at h
  obtain ⟨p, _, h⟩ := bind_eq_ok.mp h
  obtain ⟨q', hvisit, h⟩ := bind_eq_ok.mp h
  obtain rfl := Except.ok.inj h
  exact current_of_visit hg hun (get?_of_entries hlast) hvisit

/-- A sweep that does not make the entry of the name makes none that it follows. -/
theorem Current.sweep {passes : Nat} {p q : Progress} (hcurrent : Current schemas g p.table name)
    (hstage : Stage schemas g passes p)
    (h : sweep schemas g p.pending.contains p.table = .ok q) : Current schemas g q.table name := by
  by_cases hwaits : name ∈ p.pending
  · exact current_of_sweep hg hun hlast (List.contains_iff_mem.mpr hwaits) h
  obtain ⟨s, entry, deferred, hs, hget, hentry⟩ := hcurrent
  have hfinal : FinalAfter schemas g passes name := by
    by_contra hn
    exact hwaits ((hstage.pending_iff name).mpr ⟨Table.contains_of_get? hs, hn⟩)
  have hsame : ∀ n, n ∉ p.pending → q.table.get? n = p.table.get? n :=
    fun n hn => sweep_get?_of_not_waiting h (by simpa using hn)
  refine ⟨s, entry, deferred, hs, (hsame name hwaits).trans hget, ?_⟩
  -- A name followed that still waited would keep this one waiting.
  refine (Building.entry_of_unreferenced hg hun hs fun n hn => hsame n fun hwaiting => ?_).trans
    hentry
  obtain ⟨hdeclared, hnot⟩ := (hstage.pending_iff n).mp hwaiting
  have hlooked := (finalAfter_iff.mp hfinal).2 n (hun.looksUp hg hs hn hdeclared)
  exact hnot (hlooked.mono (Nat.sub_le _ _))

theorem Current.rounds (n : Nat) {passes : Nat} {p q : Progress}
    (hcurrent : Current schemas g p.table name) (hstage : Stage schemas g passes p)
    (h : rounds schemas g n p = .ok q) : Current schemas g q.table name := by
  induction n generalizing p passes with
  | zero =>
      obtain rfl := Except.ok.inj h
      exact hcurrent
  | succ n ih =>
      obtain ⟨p', hsweep, h⟩ := bind_eq_ok.mp h
      obtain ⟨_, hsweep', hstage'⟩ := hstage.sweep hg
      obtain rfl := Except.ok.inj (hsweep.symm.trans hsweep')
      exact ih (hcurrent.sweep hg hun hlast hstage hsweep) hstage' h

/-- In the end the entry of the last name is current, if nothing refers to the name. -/
theorem resolveSchemas_current {r : Resolution} (h : resolveSchemas schemas = .ok r) :
    Current schemas g r.table name := by
  obtain ⟨first, last, reports, hstage, hfirst, hrounds, hr⟩ := resolveSchemas_rounds hg
  obtain rfl := Except.ok.inj (h.symm.trans hr)
  exact (current_of_sweep hg hun hlast rfl hfirst).rounds hg hun hlast _ hstage hrounds

end current

/-! ### The finished table -/

/-- What a table under construction gives to a name that nothing refers to, the finished table of the
other names gives to its schema. -/
theorem expand_finished_of_entry (hg : Graph.ofSchemas schemas = .ok g) (hun : g.Unreferenced name)
    (hs : schemas.get? name = some s) {table : Table ResolvedSchema}
    (hkeys : table.keys = schemas.keys) {entry : ResolvedSchema} {deferred : Bool}
    (h : Building.entry ⟨schemas, g, table⟩ name s = .ok (entry, deferred)) :
    expand (.finished (table.restrict (· != name))) s = .ok { type := entry.type } ∧
      describe (.finished (table.restrict (· != name))) s = entry.description := by
  have hget : ∀ n, s.Follows n → (table.restrict (· != name)).get? n = table.get? n := by
    intro n hn
    exact Table.get?_restrict_of_kept (bne_iff_ne.mpr (hun.ne_of_follows hg hs hn))
  have hnone : ∀ n, table.get? n = none → schemas.get? n = none := by
    intro n hn
    rw [← Option.not_isSome_iff_eq_none] at hn ⊢
    change ¬ table.contains n = true at hn
    change ¬ schemas.contains n = true
    rwa [Table.contains_iff_mem_keys, ← hkeys, ← Table.contains_iff_mem_keys]
  have hdescription : ∀ n, s.Follows n →
      (Lookup.finished (table.restrict (· != name))).description n =
        (Building.lookup ⟨schemas, g, table⟩ name).description n := by
    intro n hn
    simp only [Lookup.finished, Building.lookup, Building.description, hget n hn]
    cases ht : table.get? n with
    | none => simp [hnone n ht]
    | some target => rfl
  obtain ⟨e, he, h⟩ := bind_eq_ok.mp h
  obtain ⟨rfl, _⟩ := Prod.mk.inj (Except.ok.inj h)
  refine ⟨expand_without_waiting ?_ hdescription he, describe_congr hdescription⟩
  intro n hn
  rw [Building.resolve_of_unreferenced hg hun hs table hn]
  simp only [Lookup.finished, Building.lookUp, hget n hn]
  cases ht : table.get? n with
  | none =>
      simp [Table.contains, hnone n ht, pure, Except.pure, Except.map]
  | some target =>
      have hc : schemas.contains n = true := by
        rw [Table.contains_iff_mem_keys, ← hkeys, ← Table.contains_iff_mem_keys]
        exact Table.contains_of_get? ht
      simp [hc, pure, Except.pure, Except.map]

/-- Nothing has an edge to a new name that neither its schema nor another refers to. -/
theorem unreferenced_of_refersTo (hg : Graph.ofSchemas (schemas.insert name s) = .ok g)
    (hschemas : ∀ other t, schemas.get? other = some t → ¬ t.RefersTo name)
    (hs : ¬ s.RefersTo name) : g.Unreferenced name := by
  intro other hedge
  obtain ⟨t, ht⟩ := Table.contains_iff.mp (contains_of_reaches hg (.single hedge))
  have hrefers : t.RefersTo name := ⟨_, ofSchemas_targets hg ht, hedge⟩
  rw [Table.get?_insert] at ht
  split at ht
  · obtain rfl := Option.some.inj ht
    exact hs hrefers
  · exact hschemas other t ht hrefers

/-- The entry of a new name to which nothing has an edge, and what becomes of the others. -/
theorem exists_entry_of_unreferenced (hname : schemas.contains name = false)
    (hg : Graph.ofSchemas (schemas.insert name s) = .ok g) (hun : g.Unreferenced name)
    {r' : Resolution} (h : resolveSchemas (schemas.insert name s) = .ok r') :
    ∃ r entry, resolveSchemas schemas = .ok r ∧ r'.table.restrict (· != name) = r.table ∧
      r'.table.get? name = some entry ∧
      expand (.finished r.table) s = .ok { type := entry.type } ∧
      describe (.finished r.table) s = entry.description := by
  have hclosed : g.edges.Closed (· != name) := by
    intro a b _ hab
    rw [bne_iff_ne]
    rintro rfl
    exact hun a hab
  obtain ⟨r, hr, htable⟩ := resolveSchemas_restrict hg hclosed h
  rw [Table.restrict_insert_of_not_mem hname] at hr
  obtain ⟨t, entry, deferred, ht, hget, hentry⟩ :=
    resolveSchemas_current hg hun (Table.entries_insert_of_not_mem hname) h
  obtain rfl : t = s := by
    rw [Table.get?_insert, if_pos rfl] at ht
    exact (Option.some.inj ht).symm
  obtain ⟨_, hr', hkeys, _⟩ := resolveSchemas_stage hg
  obtain rfl := Except.ok.inj (h.symm.trans hr')
  have hfinished := expand_finished_of_entry hg hun ht hkeys hentry
  rw [← htable] at hfinished
  exact ⟨r, entry, hr, htable.symm, hget, hfinished⟩

/-- A schema that is declared under a name of its own, after everything else, changes no other entry,
and its entry is what the finished table of the others makes of it. -/
theorem resolved_as_entry (hname : schemas.contains name = false)
    (hschemas : ∀ other t, schemas.get? other = some t → ¬ t.RefersTo name)
    (hs : ¬ s.RefersTo name) {r' : Resolution}
    (h : resolveSchemas (schemas.insert name s) = .ok r') :
    ∃ r entry, resolveSchemas schemas = .ok r ∧ r'.table.restrict (· != name) = r.table ∧
      r'.table.get? name = some entry ∧
      expand (.finished r.table) s = .ok { type := entry.type } ∧
      describe (.finished r.table) s = entry.description := by
  obtain ⟨g, hg⟩ := ofSchemas_of_resolveSchemas h
  exact exists_entry_of_unreferenced hname hg (unreferenced_of_refersTo hg hschemas hs) h

/-- An object with the first name of a relay in it. -/
def holder : Schema := .inline { properties := [("first", .ref "#/schemas/a")] }

/-- The first name of the relay is left pending, and so it is in the object, whether that is declared
or expanded afterwards. -/
theorem relay_holder : ∃ r r' entry, resolveSchemas (relay 18) = .ok r ∧
    resolveSchemas ((relay 18).insert "Holder" holder) = .ok r' ∧
    (relay 18).contains "Holder" = false ∧
    (∀ other t, (relay 18).get? other = some t → ¬ t.RefersTo "Holder") ∧
    ¬ holder.RefersTo "Holder" ∧ r'.table.restrict (· != "Holder") = r.table ∧
    r'.table.get? "Holder" = some entry ∧
    entry.type = .object [{ key := "first", type := .pending "aaaaaaaaaaaaaaaaaa" }] ∧
    expand (.finished r.table) holder = .ok { type := entry.type } ∧
    describe (.finished r.table) holder = entry.description := by
  have hnew : (relay 18).contains "Holder" = false := by decide +kernel
  have hothers : ∀ other t, (relay 18).get? other = some t → ¬ t.RefersTo "Holder" :=
    Table.holds_iff.mpr (by decide +kernel)
  have hself : ¬ holder.RefersTo "Holder" := by decide +kernel
  have htype : ((resolveSchemas ((relay 18).insert "Holder" holder)).toOption.bind fun r =>
      (r.table.get? "Holder").map (·.type)) =
        some (.object [{ key := "first", type := .pending "aaaaaaaaaaaaaaaaaa" }]) := by
    decide +kernel
  obtain ⟨r', hr', htype⟩ := Option.bind_eq_some_iff.mp htype
  have hr' := toOption_eq_some_iff.mp hr'
  obtain ⟨r, entry, hr, htable, hget, hexpand, hdescribe⟩ :=
    resolved_as_entry hnew hothers hself hr'
  rw [hget] at htype
  exact ⟨r, r', entry, hr, hr', hnew, hothers, hself, htable, hget, Option.some.inj htype, hexpand,
    hdescribe⟩

end ApiTypes
