/-! # Tables

Finite maps from names to values that keep the order of their first entries.  Setting a name that is
present keeps its place and replaces its value, so no name is there twice.

Main definitions: `Table`, `get?`, `insert`, `ofList`, `map`.
Main statements: `get?_insert` (an insertion is seen under its own name and no other),
`keys_insert_of_mem` and `keys_insert_of_not_mem` (where its name stands). -/

namespace ApiTypes

/-- Named values in the order of their first mention, no name twice. -/
structure Table (α : Type) where
  entries : List (String × α)
  nodup : (entries.map Prod.fst).Nodup
  deriving DecidableEq

namespace Table

variable {α β : Type}

/-- The table without entries. -/
def empty : Table α := ⟨[], List.nodup_nil⟩

instance : Inhabited (Table α) := ⟨empty⟩

/-- The names, in order. -/
def keys (t : Table α) : List String := t.entries.map Prod.fst

/-- The number of entries. -/
def size (t : Table α) : Nat := t.entries.length

/-- Has the table no entry? -/
def isEmpty (t : Table α) : Bool := t.entries.isEmpty

/-- The value under a name. -/
def get? (t : Table α) (name : String) : Option α := t.entries.lookup name

/-- Is the name declared? -/
def contains (t : Table α) (name : String) : Bool := (t.get? name).isSome

/-- Set a name in a list of entries: in its place where it has one, else at the end. -/
def put (name : String) (value : α) : List (String × α) → List (String × α)
  | [] => [(name, value)]
  | (n, v) :: rest => if n = name then (name, value) :: rest else (n, v) :: put name value rest

theorem keys_put_of_mem (name : String) (value : α) : ∀ l : List (String × α),
    name ∈ l.map Prod.fst → (put name value l).map Prod.fst = l.map Prod.fst
  | [], h => by simp at h
  | (n, v) :: rest, h => by
    by_cases hn : n = name
    · simp [put, hn]
    · have : name ∈ rest.map Prod.fst := by
        rcases List.mem_cons.1 h with h | h
        · exact absurd h.symm hn
        · exact h
      simp [put, hn, keys_put_of_mem name value rest this]

theorem keys_put_of_not_mem (name : String) (value : α) : ∀ l : List (String × α),
    name ∉ l.map Prod.fst → (put name value l).map Prod.fst = l.map Prod.fst ++ [name]
  | [], _ => by simp [put]
  | (n, v) :: rest, h => by
    have hn : n ≠ name := fun e => h (by simp [e])
    have hr : name ∉ rest.map Prod.fst := fun e => h (List.mem_cons_of_mem _ e)
    simp [put, hn, keys_put_of_not_mem name value rest hr]

theorem nodup_put (name : String) (value : α) (l : List (String × α))
    (h : (l.map Prod.fst).Nodup) : ((put name value l).map Prod.fst).Nodup := by
  by_cases hm : name ∈ l.map Prod.fst
  · rwa [keys_put_of_mem name value l hm]
  · rw [keys_put_of_not_mem name value l hm]
    refine List.nodup_append.2 ⟨h, by simp, ?_⟩
    intro a ha b hb e
    rw [List.mem_singleton] at hb
    exact hm (hb ▸ e ▸ ha)

theorem lookup_put (name other : String) (value : α) : ∀ l : List (String × α),
    (put name value l).lookup other = if other = name then some value else l.lookup other
  | [] => by
    by_cases h : other = name
    · simp [put, h]
    · have hb : (other == name) = false := by simpa using h
      simp [put, List.lookup_cons, h, hb]
  | (n, v) :: rest => by
    by_cases hn : n = name
    · subst hn
      by_cases h : other = n
      · simp [put, h]
      · have hb : (other == n) = false := by simpa using h
        simp [put, List.lookup_cons, h, hb]
    · by_cases ho : other = n
      · subst ho
        simp [put, hn]
      · have hb : (other == n) = false := by simpa using ho
        simp [put, hn, List.lookup_cons, hb, lookup_put name other value rest]

/-- The table with the name set to the value. -/
def insert (t : Table α) (name : String) (value : α) : Table α :=
  ⟨put name value t.entries, nodup_put name value t.entries t.nodup⟩

/-- The table of a list of entries, set one after the other. -/
def ofList (l : List (String × α)) : Table α :=
  l.foldl (fun t e => t.insert e.1 e.2) empty

/-- The table with every value replaced. -/
def map (f : α → β) (t : Table α) : Table β :=
  ⟨t.entries.map fun e => (e.1, f e.2), by
    rw [List.map_map]
    exact t.nodup⟩

theorem get?_insert (t : Table α) (name other : String) (value : α) :
    (t.insert name value).get? other = if other = name then some value else t.get? other :=
  lookup_put name other value t.entries

theorem keys_insert_of_mem (t : Table α) {name : String} (value : α) (h : name ∈ t.keys) :
    (t.insert name value).keys = t.keys :=
  keys_put_of_mem name value t.entries h

theorem keys_insert_of_not_mem (t : Table α) {name : String} (value : α) (h : name ∉ t.keys) :
    (t.insert name value).keys = t.keys ++ [name] :=
  keys_put_of_not_mem name value t.entries h

end Table

end ApiTypes
