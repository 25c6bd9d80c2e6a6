import ApiTypes.Table
import Mathlib.Data.List.Basic
import Mathlib.Data.List.Perm.Basic
import Mathlib.Data.List.Nodup

/-! # Entries of tables

A table says of a name what the entry of that name says, wherever it stands (`get?_of_mem`),
so tables with the same entries in another order say the same (`get?_of_perm`).  Cut down to some
names, a table says the same of these and nothing of others (`get?_restrict`).

Main definitions: `Table.Holds`, `Table.restrict`. -/

namespace ApiTypes.Table

variable {α : Type} {t : Table α} {name : String} {value : α}

theorem nodup_keys (t : Table α) : t.keys.Nodup := t.nodup

theorem mem_of_get? (h : t.get? name = some value) : (name, value) ∈ t.entries := by
  obtain ⟨before, after, he, _⟩ := List.lookup_eq_some_iff.mp h
  rw [he]
  exact List.mem_append_right _ List.mem_cons_self

theorem get?_of_mem (h : (name, value) ∈ t.entries) : t.get? name = some value := by
  obtain ⟨before, after, he⟩ := List.append_of_mem h
  refine List.lookup_eq_some_iff.mpr ⟨before, after, he, ?_⟩
  intro e hm
  have hn := t.nodup
  rw [he, List.map_append, List.map_cons] at hn
  have hne : e.1 ≠ name :=
    (List.nodup_append.mp hn).2.2 _ (List.mem_map_of_mem hm) _ List.mem_cons_self
  simpa using hne.symm

theorem contains_iff : t.contains name = true ↔ ∃ value, t.get? name = some value :=
  Option.isSome_iff_exists

theorem contains_of_get? (h : t.get? name = some value) : t.contains name = true :=
  contains_iff.mpr ⟨value, h⟩

theorem contains_iff_mem_keys : t.contains name = true ↔ name ∈ t.keys := by
  rw [contains_iff]
  constructor
  · rintro ⟨value, h⟩
    exact List.mem_map_of_mem (f := Prod.fst) (mem_of_get? h)
  · intro h
    obtain ⟨⟨n, value⟩, hm, rfl⟩ := List.mem_map.mp h
    exact ⟨value, get?_of_mem hm⟩

theorem entries_eq_map_keys (t : Table α) (default : α) :
    t.entries = t.keys.map fun name => (name, (t.get? name).getD default) := by
  unfold keys
  rw [List.map_map]
  refine (List.map_id'' (fun _ => rfl) _).symm.trans (List.map_congr_left ?_)
  rintro ⟨name, value⟩ h
  simp [get?_of_mem h]

/-- A table has an entry for each name of another with the same names. -/
theorem exists_get?_of_keys {β : Type} {u : Table β} (h : t.keys = u.keys)
    (hname : u.contains name = true) : ∃ value, t.get? name = some value := by
  rw [contains_iff_mem_keys, ← h, ← contains_iff_mem_keys] at hname
  exact contains_iff.mp hname

/-- A new name comes last. -/
theorem entries_insert_of_not_mem (h : t.contains name = false) :
    (t.insert name value).entries = t.entries ++ [(name, value)] := by
  have hput : ∀ l : List (String × α), (∀ e ∈ l, e.1 ≠ name) →
      put name value l = l ++ [(name, value)] := by
    intro l hl
    induction l with
    | nil => rfl
    | cons e rest ih =>
        rw [put, if_neg (hl e List.mem_cons_self),
          ih fun e' he' => hl e' (List.mem_cons_of_mem _ he')]
        rfl
  apply hput
  intro e he hn
  rw [← hn, contains_of_get? (get?_of_mem he)] at h
  cases h

theorem get?_of_perm {u : Table α} (h : t.entries.Perm u.entries) (name : String) :
    t.get? name = u.get? name := by
  cases hu : u.get? name with
  | some value => exact get?_of_mem (h.mem_iff.mpr (mem_of_get? hu))
  | none =>
      cases ht : t.get? name with
      | none => rfl
      | some value =>
          rw [get?_of_mem (h.mem_iff.mp (mem_of_get? ht))] at hu
          cases hu

theorem contains_of_perm {u : Table α} (h : t.entries.Perm u.entries) (name : String) :
    t.contains name = u.contains name :=
  congrArg Option.isSome (get?_of_perm h name)

theorem get?_map {β : Type} (f : α → β) (t : Table α) (name : String) :
    (t.map f).get? name = (t.get? name).map f := by
  change (t.entries.map fun e => (e.1, f e.2)).lookup name = (t.entries.lookup name).map f
  induction t.entries with
  | nil => rfl
  | cons e rest ih =>
      rw [List.map_cons, List.lookup_cons, List.lookup_cons, ih]
      cases name == e.1 <;> rfl

theorem contains_map {β : Type} (f : α → β) (t : Table α) (name : String) :
    (t.map f).contains name = t.contains name := by
  unfold contains
  rw [get?_map, Option.isSome_map]

/-- Setting a name to the value it has changes nothing. -/
theorem insert_eq_self (h : t.get? name = some value) : t.insert name value = t := by
  have hput : ∀ l : List (String × α), l.lookup name = some value → put name value l = l := by
    intro l hl
    induction l with
    | nil => cases hl
    | cons e rest ih =>
        obtain ⟨n, v⟩ := e
        by_cases hn : n = name
        · subst hn
          rw [List.lookup_cons_self] at hl
          obtain rfl := Option.some.inj hl
          simp [put]
        · have hb : (name == n) = false := by simpa using fun e : name = n => hn e.symm
          rw [List.lookup_cons, hb] at hl
          rw [put, if_neg hn, ih hl]
  obtain ⟨entries, nodup⟩ := t
  unfold insert
  simp only [hput entries h]

/-! ### Properties of every entry -/

/-- Every entry has the property. -/
def Holds (P : String → α → Prop) (t : Table α) : Prop := ∀ name a, t.get? name = some a → P name a

section Holds
variable {P : String → α → Prop}

theorem holds_iff : t.Holds P ↔ ∀ e ∈ t.entries, P e.1 e.2 := by
  constructor
  · exact fun h e he => h e.1 e.2 (get?_of_mem he)
  · exact fun h name a ha => h (name, a) (mem_of_get? ha)

theorem holds_empty : (empty : Table α).Holds P := by
  intro name a h
  cases h

theorem Holds.insert (h : t.Holds P) {name : String} {a : α} (ha : P name a) :
    (t.insert name a).Holds P := by
  intro other b hb
  rw [get?_insert] at hb
  by_cases hn : other = name
  · rw [if_pos hn] at hb
    obtain rfl := Option.some.inj hb
    exact hn ▸ ha
  · rw [if_neg hn] at hb
    exact h other b hb

theorem holds_ofList {l : List (String × α)} (h : ∀ e ∈ l, P e.1 e.2) : (ofList l).Holds P := by
  have run : ∀ (l : List (String × α)) (t : Table α), t.Holds P → (∀ e ∈ l, P e.1 e.2) →
      (l.foldl (fun t e => t.insert e.1 e.2) t).Holds P := by
    intro l
    induction l with
    | nil => exact fun t ht _ => ht
    | cons e rest ih =>
        intro t ht hl
        exact ih (t.insert e.1 e.2) (ht.insert (hl e List.mem_cons_self))
          fun e' he' => hl e' (List.mem_cons_of_mem _ he')
  exact run l empty holds_empty h

end Holds

/-! ### Some of the names -/

/-- The entries of the names to keep, in their order. -/
def restrict (keep : String → Bool) (t : Table α) : Table α :=
  ⟨t.entries.filter fun e => keep e.1, t.nodup.sublist (List.filter_sublist.map Prod.fst)⟩

theorem eq_of_entries {t u : Table α} (h : t.entries = u.entries) : t = u := by
  obtain ⟨entries, nodup⟩ := t
  obtain rfl : entries = u.entries := h
  rfl

section restrict
variable {keep : String → Bool}

theorem get?_restrict (keep : String → Bool) (t : Table α) (name : String) :
    (t.restrict keep).get? name = if keep name then t.get? name else none := by
  have hmem : ∀ a, (t.restrict keep).get? name = some a ↔ keep name = true ∧ t.get? name = some a := by
    intro a
    constructor
    · intro h
      obtain ⟨hentry, hkeep⟩ := List.mem_filter.mp (mem_of_get? h)
      exact ⟨hkeep, get?_of_mem hentry⟩
    · rintro ⟨hkeep, h⟩
      exact get?_of_mem (List.mem_filter.mpr ⟨mem_of_get? h, hkeep⟩)
  apply Option.ext
  intro a
  rw [hmem a]
  cases keep name <;> simp

theorem get?_restrict_of_kept (h : keep name = true) :
    (t.restrict keep).get? name = t.get? name := by
  rw [get?_restrict, if_pos h]

theorem contains_restrict_of_kept (h : keep name = true) :
    (t.restrict keep).contains name = t.contains name :=
  congrArg Option.isSome (get?_restrict_of_kept h)

theorem filter_put (keep : String → Bool) (name : String) (value : α) :
    ∀ l : List (String × α), (put name value l).filter (fun e => keep e.1) =
      if keep name then put name value (l.filter fun e => keep e.1)
      else l.filter fun e => keep e.1
  | [] => by cases h : keep name <;> simp [put, h]
  | (n, v) :: rest => by
      by_cases hn : n = name
      · subst hn
        cases h : keep n <;> simp [put, h]
      · have ih := filter_put keep name value rest
        cases hk : keep n <;> cases h : keep name <;> simp [put, hn, hk, h, ih]

theorem restrict_insert_of_kept (h : keep name = true) :
    (t.insert name value).restrict keep = (t.restrict keep).insert name value :=
  eq_of_entries ((filter_put keep name value t.entries).trans (if_pos h))

theorem restrict_insert_of_dropped (h : keep name = false) :
    (t.insert name value).restrict keep = t.restrict keep :=
  eq_of_entries ((filter_put keep name value t.entries).trans (if_neg (by simp [h])))

/-- A new name is taken away again by leaving it out. -/
theorem restrict_insert_of_not_mem (h : t.contains name = false) :
    (t.insert name value).restrict (· != name) = t := by
  rw [restrict_insert_of_dropped (by simp)]
  refine eq_of_entries (List.filter_eq_self.mpr ?_)
  intro e he
  rw [bne_iff_ne]
  intro hn
  rw [← hn, contains_of_get? (get?_of_mem he)] at h
  cases h

theorem pairwise_idxOf (t : Table α) :
    t.entries.Pairwise fun a b => t.keys.idxOf a.1 < t.keys.idxOf b.1 := by
  have hkeys : t.keys.Pairwise fun a b => t.keys.idxOf a < t.keys.idxOf b := by
    rw [List.pairwise_iff_getElem]
    intro i j hi hj hij
    rwa [t.nodup_keys.idxOf_getElem i hi, t.nodup_keys.idxOf_getElem j hj]
  unfold keys at hkeys ⊢
  rwa [List.pairwise_map] at hkeys

/-- Tables that say the same of the names to keep, and name them in the same order, have the same
entries of these. -/
theorem restrict_eq_of_order {u : Table α}
    (hget : ∀ name, keep name = true → t.get? name = u.get? name)
    (horder : ∀ a b, keep a = true → keep b = true → t.contains a = true → t.contains b = true →
      (t.keys.idxOf a < t.keys.idxOf b ↔ u.keys.idxOf a < u.keys.idxOf b)) :
    t.restrict keep = u.restrict keep := by
  have hmem : ∀ e, e ∈ (t.restrict keep).entries ↔ e ∈ (u.restrict keep).entries := by
    intro e
    refine List.mem_filter.trans (Iff.trans ?_ List.mem_filter.symm)
    refine and_congr_left fun hkeep => ?_
    constructor
    · exact fun he => mem_of_get? (hget e.1 hkeep ▸ get?_of_mem he)
    · exact fun he => mem_of_get? ((hget e.1 hkeep).trans (get?_of_mem he))
  apply eq_of_entries
  refine @List.Perm.eq_of_pairwise _ (fun a b => t.keys.idxOf a.1 < t.keys.idxOf b.1) _ _
    ?_ ?_ ?_ ?_
  · intro a b _ _ hab hba
    omega
  · exact t.pairwise_idxOf.sublist List.filter_sublist
  · refine (u.pairwise_idxOf.sublist List.filter_sublist).imp_of_mem ?_
    intro a b ha hb hab
    obtain ⟨hta, hka⟩ := List.mem_filter.mp ((hmem a).mpr ha)
    obtain ⟨htb, hkb⟩ := List.mem_filter.mp ((hmem b).mpr hb)
    exact (horder a.1 b.1 hka hkb (contains_of_get? (get?_of_mem hta))
      (contains_of_get? (get?_of_mem htb))).mpr hab
  · exact (List.perm_ext_iff_of_nodup (t.restrict keep).nodup.of_map
      (u.restrict keep).nodup.of_map).mpr hmem

end restrict

end ApiTypes.Table
