import ApiTypes.Proofs.Resolution.Forms
import ApiTypes.Proofs.Sequencing
import ApiTypes.Proofs.Tables
import ApiTypes.Resolution.Schemas

/-! # What every entry has

A property that the entries of a table under construction hand on to the entries made from it is
one of every entry of the resolved table, whatever the number of passes (`resolveSchemas_holds`).  A
property of types is handed on where expansion hands it on from what references become
(`resolveSchemas_types`). -/

namespace ApiTypes

section
variable {schemas : Table Schema} {g : Graph} {P : String → ResolvedSchema → Prop}

/-- Entries made while all entries so far have the property have it as well. -/
def HandsOn (schemas : Table Schema) (g : Graph) (P : String → ResolvedSchema → Prop) : Prop :=
  ∀ (table : Table ResolvedSchema) (name : String) (s : Schema) (entry : ResolvedSchema)
    (deferred : Bool), table.Holds P → schemas.get? name = some s →
    Building.entry ⟨schemas, g, table⟩ name s = .ok (entry, deferred) → P name entry

variable (hP : HandsOn schemas g P)
include hP

theorem firstPass_holds {p : Progress} (h : firstPass schemas g = .ok p) : p.table.Holds P := by
  refine Stepwise.Yields.foldlM (m := Except InvalidRef) h (fun _ p => p.table.Holds P)
    Table.holds_empty ?_
  rintro pre ⟨name, s⟩ post p p' hl hp hstep
  obtain ⟨⟨entry, deferred⟩, hentry, hp'⟩ := bind_eq_ok.mp hstep
  obtain rfl := Except.ok.inj hp'
  have hs : schemas.get? name = some s := Table.get?_of_mem (by simp [hl])
  exact hp.insert (hP _ name s entry deferred hp hs hentry)

theorem retryPass_holds {p q : Progress} {changed : Bool}
    (h : retryPass schemas g p = .ok (q, changed)) (hp : p.table.Holds P) : q.table.Holds P := by
  refine Stepwise.Yields.foldlM (m := Except InvalidRef) h (fun _ state => state.1.table.Holds P)
    hp ?_
  rintro pre ⟨name, s⟩ post ⟨p, before⟩ ⟨p', after⟩ hl hp hstep
  obtain ⟨⟨entry, deferred⟩, hentry, hp'⟩ := bind_eq_ok.mp hstep
  have hmem : (name, s) ∈ schemas.entries := List.mem_of_mem_filter (by rw [hl]; simp)
  have hnew : P name entry := hP _ name s entry deferred hp (Table.get?_of_mem hmem) hentry
  dsimp only at hp'
  split at hp'
  · obtain ⟨rfl, _⟩ := Prod.mk.inj (Except.ok.inj hp')
    exact hp
  · obtain ⟨rfl, _⟩ := Prod.mk.inj (Except.ok.inj hp')
    exact hp.insert hnew

theorem retry_holds (passes : Nat) {p q : Progress} {reports : List PassReport}
    (h : retry schemas g passes p = .ok (q, reports)) (hp : p.table.Holds P) : q.table.Holds P := by
  induction passes generalizing p q reports with
  | zero =>
      obtain ⟨rfl, _⟩ := Prod.mk.inj (Except.ok.inj h)
      exact hp
  | succ passes ih =>
      rw [retry] at h
      split at h
      · obtain ⟨rfl, _⟩ := Prod.mk.inj (Except.ok.inj h)
        exact hp
      obtain ⟨⟨p', changed⟩, hpass, h⟩ := bind_eq_ok.mp h
      have hp' := retryPass_holds hP hpass hp
      dsimp only at h
      split at h
      · obtain ⟨rfl, _⟩ := Prod.mk.inj (Except.ok.inj h)
        exact hp'
      obtain ⟨⟨q', _⟩, hretry, h⟩ := bind_eq_ok.mp h
      obtain ⟨rfl, _⟩ := Prod.mk.inj (Except.ok.inj h)
      exact ih hretry hp'

end

/-- Every entry of the resolved table has a property that entries hand on. -/
theorem resolveSchemas_holds {schemas : Table Schema} {P : String → ResolvedSchema → Prop}
    {r : Resolution} (h : resolveSchemas schemas = .ok r)
    (hP : ∀ g, Graph.ofSchemas schemas = .ok g → HandsOn schemas g P) : r.table.Holds P := by
  unfold resolveSchemas at h
  obtain ⟨g, hg, h⟩ := bind_eq_ok.mp h
  obtain ⟨first, hfirst, h⟩ := bind_eq_ok.mp h
  obtain ⟨⟨last, reports⟩, hlast, h⟩ := bind_eq_ok.mp h
  obtain rfl := Except.ok.inj h
  exact retry_holds (hP g hg) maxRetryPasses hlast (firstPass_holds (hP g hg) hfirst)

/-! ### Types -/

/-- What a name becomes is a record, the name itself, what the table says of it, or what its
declaration is expanded to. -/
theorem Building.resolveAt_cases {b : Building} {room : Nat} {path : List String} {name : String}
    {e : Expansion} (h : b.resolveAt room path name = .ok e) :
    e = { type := .record } ∨ e = { type := .pending name } ∨ e = b.lookUp name ∨
      ∃ rest s, room = rest + 1 ∧ b.schemas.get? name = some s ∧
        expand ⟨b.resolveAt rest (path ++ [name]), b.description⟩ s = .ok e := by
  unfold resolveAt at h
  split at h
  · exact Or.inl (Except.ok.inj h).symm
  split at h
  · exact Or.inr (Or.inl (Except.ok.inj h).symm)
  · next s hs =>
    split at h
    · exact Or.inr (Or.inr (Or.inl (Except.ok.inj h).symm))
    cases room with
    | zero => exact Or.inl (Except.ok.inj h).symm
    | succ rest => exact Or.inr (Or.inr (Or.inr ⟨rest, s, rfl, hs, h⟩))

section
variable {P : Descriptor → Prop} (record : P .record) (pending : ∀ name, P (.pending name))
include record pending

theorem Building.resolveAt_types {b : Building} (htable : b.table.Holds fun _ entry => P entry.type)
    (expanded : ∀ (l : Lookup) (name : String) (s : Schema) (e : Expansion),
      b.schemas.get? name = some s → (∀ n e, l.resolve n = .ok e → P e.type) →
      expand l s = .ok e → P e.type)
    (room : Nat) : ∀ (path : List String) (name : String) (e : Expansion),
      b.resolveAt room path name = .ok e → P e.type := by
  have hlookUp : ∀ name, P (b.lookUp name).type := by
    intro name
    unfold lookUp
    cases ht : b.table.get? name with
    | none => exact pending name
    | some entry => exact htable name entry ht
  -- Each name put on the way takes one from the room.
  induction room with
  | zero =>
      intro path name e h
      rcases resolveAt_cases h with rfl | rfl | rfl | ⟨_, _, hroom, _⟩
      · exact record
      · exact pending name
      · exact hlookUp name
      · cases hroom
  | succ room ih =>
      intro path name e h
      rcases resolveAt_cases h with rfl | rfl | rfl | ⟨rest, s, hroom, hs, he⟩
      · exact record
      · exact pending name
      · exact hlookUp name
      · obtain rfl := Nat.succ.inj hroom
        exact expanded _ name s e hs (ih (path ++ [name])) he

/-- The type of every entry has a property that expansion hands on. -/
theorem resolveSchemas_types {schemas : Table Schema} {r : Resolution}
    (h : resolveSchemas schemas = .ok r)
    (expanded : ∀ (l : Lookup) (name : String) (s : Schema) (e : Expansion),
      schemas.get? name = some s → (∀ n e, l.resolve n = .ok e → P e.type) →
      expand l s = .ok e → P e.type) :
    r.table.Holds fun _ entry => P entry.type := by
  refine resolveSchemas_holds h ?_
  intro g _ table name s entry deferred htable hs hentry
  obtain ⟨e, he, hentry⟩ := bind_eq_ok.mp hentry
  obtain ⟨rfl, _⟩ := Prod.mk.inj (Except.ok.inj hentry)
  exact expanded _ name s e hs
    (Building.resolveAt_types record pending htable expanded (maxInlineDepth - 1) [name]) he

end

/-! ### Types that are assembled -/

section handedOn
variable {P : Descriptor → Prop} {Q : Schema → Prop}
  (parts : ∀ shape : Shape, Q (.inline shape) → ∀ s ∈ shape.parts, Q s)
  (assembled : ∀ (shape : Shape) (about : Schema → Option String) (type : Schema → Descriptor),
    Q (.inline shape) → (∀ s ∈ shape.parts, P (type s)) → P (shape.assemble about type))
include parts assembled

/-- Expansion hands on what is handed on from parts to what is assembled of them. -/
theorem expand_type {l : Lookup} (hl : ∀ name e, l.resolve name = .ok e → P e.type) {s : Schema}
    (hs : Q s) {e : Expansion} (h : expand l s = .ok e) : P e.type := by
  induction s using Schema.induction generalizing e with
  | ref path =>
      rw [expand, bind_eq_ok] at h
      obtain ⟨name, _, h⟩ := h
      exact hl name e h
  | inline shape ih =>
      obtain ⟨r, hr, htype⟩ := exists_assembled h
      rw [htype]
      exact assembled shape _ _ hs fun s hmem => ih s hmem (parts shape hs s hmem) (hr s hmem)

variable (pending : ∀ name, P (.pending name))
include pending

theorem expand_finished_type {table : Table ResolvedSchema}
    (htable : table.Holds fun _ entry => P entry.type) {s : Schema} (hs : Q s) {e : Expansion}
    (h : expand (.finished table) s = .ok e) : P e.type := by
  refine expand_type parts assembled ?_ hs h
  intro name e he
  obtain rfl := Except.ok.inj he
  cases ht : table.get? name with
  | none => exact pending name
  | some entry => exact htable name entry ht

theorem resolveSchemas_type (record : P .record) {schemas : Table Schema} {r : Resolution}
    (hschemas : schemas.Holds fun _ s => Q s) (h : resolveSchemas schemas = .ok r) :
    r.table.Holds fun _ entry => P entry.type := by
  refine resolveSchemas_types record pending h ?_
  intro l name s e hs hl he
  exact expand_type parts assembled hl (hschemas name s hs) he

end handedOn

end ApiTypes
