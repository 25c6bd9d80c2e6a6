import ApiTypes.Proofs.Resolution.Unfolding

/-! # Entries of a table under construction

An entry is expanded against the table built so far.  It succeeds, it waits exactly when a declared
name is not resolved in it, and that is so exactly when it is so for a name that it looks up
(`Building.Expanded`).  Where everything looked up is unfolded, the entry is. -/

namespace ApiTypes

/-- A declared name is not resolved in the descriptor. -/
def Descriptor.Awaits (schemas : Table Schema) (d : Descriptor) : Prop :=
  ∃ n ∈ d.pendingTargets, schemas.contains n = true

instance (schemas : Table Schema) (d : Descriptor) : Decidable (d.Awaits schemas) :=
  inferInstanceAs (Decidable (∃ n ∈ d.pendingTargets, schemas.contains n = true))

namespace Building

variable {b : Building}

theorem lookUp_of_get? {name : String} {entry : ResolvedSchema}
    (h : b.table.get? name = some entry) : (b.lookUp name).type = entry.type := by
  unfold lookUp
  rw [h]

theorem lookUp_of_get?_none {name : String} (h : b.table.get? name = none) :
    (b.lookUp name).type = .pending name := by
  unfold lookUp
  rw [h]

/-- What is looked up has to be asked again exactly when it waits for a declared name. -/
theorem lookUp_deferred_iff {name : String} (hn : b.schemas.contains name = true) :
    (b.lookUp name).deferred = true ↔ (b.lookUp name).type.Awaits b.schemas := by
  unfold lookUp
  cases b.table.get? name with
  | none => simp [Descriptor.Awaits, Descriptor.pendingTargets, hn]
  | some entry => simp [Descriptor.Awaits]

/-! ### What a name becomes -/

section resolveAt
variable {room : Nat} {path : List String} {name : String} {s : Schema}

theorem resolveAt_back (h : name ∈ path) :
    b.resolveAt room path name = .ok { type := .record } := by
  unfold resolveAt
  rw [if_pos (by simpa using h)]
  rfl

theorem resolveAt_undeclared (hn : name ∉ path) (hs : b.schemas.get? name = none) :
    b.resolveAt room path name = .ok { type := .pending name } := by
  unfold resolveAt
  rw [if_neg (by simpa using hn), hs]
  rfl

theorem resolveAt_apart (hn : name ∉ path) (hs : b.schemas.get? name = some s)
    (h : b.graph.reachesAny name path = false) :
    b.resolveAt room path name = .ok (b.lookUp name) := by
  unfold resolveAt
  rw [if_neg (by simpa using hn), hs]
  simp only [h, Bool.not_false, if_true]
  rfl

theorem resolveAt_deep (hn : name ∉ path) (hs : b.schemas.get? name = some s)
    (h : b.graph.reachesAny name path = true) :
    b.resolveAt 0 path name = .ok { type := .record } := by
  unfold resolveAt
  rw [if_neg (by simpa using hn), hs]
  simp only [h, Bool.not_true, Bool.false_eq_true, if_false]
  rfl

theorem resolveAt_inside (hn : name ∉ path) (hs : b.schemas.get? name = some s)
    (h : b.graph.reachesAny name path = true) :
    b.resolveAt (room + 1) path name =
      expand ⟨b.resolveAt room (path ++ [name]), b.description⟩ s := by
  rw [resolveAt, if_neg (by simpa using hn), hs]
  simp only [h, Bool.not_true, Bool.false_eq_true, if_false]

end resolveAt

/-! ### What a schema expands to -/

/-- An expansion of the schema on the way along the path, against what the table says of the names
looked up. -/
structure Expanded (b : Building) (path : List String) (s : Schema) (e : Expansion) : Prop where
  deferred_iff : e.deferred = true ↔ e.type.Awaits b.schemas
  awaits_iff : e.type.Awaits b.schemas ↔
    ∃ y, LooksUpFrom b.schemas b.graph path s y ∧ (b.lookUp y).type.Awaits b.schemas
  unfolded : ∀ E, Unfolds b.schemas b.graph E →
    (∀ y t, LooksUpFrom b.schemas b.graph path s y → b.schemas.get? y = some t →
      (b.lookUp y).type.bare = E [y] t) → e.type.bare = E path s

theorem Expanded.inline {path : List String} {shape : Shape} {about : Schema → Option String}
    {r : Schema → Expansion} (h : ∀ s ∈ shape.parts, b.Expanded path s (r s)) :
    b.Expanded path (.inline shape) {
      type := shape.assemble about fun s => (r s).type
      deferred := shape.parts.any fun s => (r s).deferred } := by
  have hawaits : (shape.assemble about fun s => (r s).type).Awaits b.schemas ↔
      ∃ s ∈ shape.parts, (r s).type.Awaits b.schemas := by
    unfold Descriptor.Awaits
    rw [pendingTargets_assemble]
    simp only [List.mem_flatMap]
    constructor
    · rintro ⟨n, ⟨s, hs, hn⟩, hc⟩
      exact ⟨s, hs, n, hn, hc⟩
    · rintro ⟨s, hs, n, hn, hc⟩
      exact ⟨n, ⟨s, hs, hn⟩, hc⟩
  constructor
  · rw [hawaits, List.any_eq_true]
    exact exists_congr fun s => and_congr_right fun hs => (h s hs).deferred_iff
  · rw [hawaits]
    constructor
    · rintro ⟨s, hs, hw⟩
      obtain ⟨y, hy, hw⟩ := (h s hs).awaits_iff.mp hw
      exact ⟨y, looksUpFrom_inline_iff.mpr ⟨s, hs, hy⟩, hw⟩
    · rintro ⟨y, hy, hw⟩
      obtain ⟨s, hs, hy⟩ := looksUpFrom_inline_iff.mp hy
      exact ⟨s, hs, (h s hs).awaits_iff.mpr ⟨y, hy, hw⟩⟩
  · intro E hE hlooked
    rw [bare_assemble, hE.inline]
    apply Shape.assemble_congr
    intro s hs
    apply (h s hs).unfolded E hE
    intro y t hy
    exact hlooked y t (looksUpFrom_inline_iff.mpr ⟨s, hs, hy⟩)

/-- An expansion that looks nothing up and holds no declared name. -/
theorem Expanded.closed {path : List String} {s : Schema} {d : Descriptor}
    (hlook : ∀ y, ¬ LooksUpFrom b.schemas b.graph path s y) (hd : ¬ d.Awaits b.schemas)
    (hE : ∀ E, Unfolds b.schemas b.graph E → d.bare = E path s) :
    b.Expanded path s { type := d } := by
  constructor
  · simpa using hd
  · simpa [hd] using fun y hy => absurd hy (hlook y)
  · intro E h _
    exact hE E h

section ref
variable {path : List String} {ref name : String} {s : Schema} (href : refName ref = .ok name)
  (hn : name ∉ path) (hs : b.schemas.get? name = some s)
include href hn hs

theorem Expanded.apart (h : b.graph.reachesAny name path = false) :
    b.Expanded path (.ref ref) (b.lookUp name) := by
  constructor
  · exact lookUp_deferred_iff (Table.contains_of_get? hs)
  · simp only [looksUpFrom_apart_iff href hn hs h, exists_eq_left]
  · intro E hE hlooked
    rw [hE.apart href hn hs h]
    exact hlooked name s ((looksUpFrom_apart_iff href hn hs h).mpr rfl) hs

theorem Expanded.inside {e : Expansion} (h : b.graph.reachesAny name path = true)
    (hlt : path.length < maxInlineDepth) (he : b.Expanded (path ++ [name]) s e) :
    b.Expanded path (.ref ref) e := by
  constructor
  · exact he.deferred_iff
  · simp only [looksUpFrom_inside_iff href hn hs h hlt]
    exact he.awaits_iff
  · intro E hE hlooked
    rw [hE.inside href hn hs h hlt]
    apply he.unfolded E hE
    intro y t hy
    exact hlooked y t ((looksUpFrom_inside_iff href hn hs h hlt).mpr hy)

end ref

/-- Along a path, a schema with valid references is expanded, given that it is along a longer one. -/
theorem exists_expanded_step {room : Nat} {path : List String}
    (hlen : path.length + room = maxInlineDepth)
    (valid : ∀ name s, b.schemas.get? name = some s → ∃ found, s.references = .ok found)
    (longer : ∀ name s rest, room = rest + 1 → (∃ found, s.references = .ok found) →
      ∃ e, expand ⟨b.resolveAt rest (path ++ [name]), b.description⟩ s = .ok e ∧
        b.Expanded (path ++ [name]) s e)
    (s : Schema) (hs : ∃ found, s.references = .ok found) :
    ∃ e, expand ⟨b.resolveAt room path, b.description⟩ s = .ok e ∧ b.Expanded path s e := by
  induction s using Schema.induction with
  | ref ref =>
      obtain ⟨found, hfound⟩ := hs
      obtain ⟨name, href, _⟩ := refName_of_references hfound
      have hexpand : expand ⟨b.resolveAt room path, b.description⟩ (.ref ref) =
          b.resolveAt room path name := by
        rw [expand, href]
        rfl
      rw [hexpand]
      by_cases hn : name ∈ path
      · refine ⟨_, resolveAt_back hn, .closed (fun y => not_looksUpFrom_of_mem href hn) ?_ ?_⟩
        · simp [Descriptor.Awaits, Descriptor.pendingTargets]
        · exact fun E hE => (hE.back href hn).symm
      cases ht : b.schemas.get? name with
      | none =>
          refine ⟨_, resolveAt_undeclared hn ht,
            .closed (fun y => not_looksUpFrom_of_undeclared href ht) ?_ ?_⟩
          · simp [Descriptor.Awaits, Descriptor.pendingTargets, Table.contains, ht]
          · exact fun E hE => (hE.undeclared href hn ht).symm
      | some t =>
          cases hreach : b.graph.reachesAny name path with
          | false => exact ⟨_, resolveAt_apart hn ht hreach, .apart href hn ht hreach⟩
          | true =>
              cases room with
              | zero =>
                  have hdeep : maxInlineDepth ≤ path.length := by omega
                  refine ⟨_, resolveAt_deep hn ht hreach,
                    .closed (fun y => not_looksUpFrom_of_deep href hreach hdeep) ?_ ?_⟩
                  · simp [Descriptor.Awaits, Descriptor.pendingTargets]
                  · exact fun E hE => (hE.deep href hn ht hreach hdeep).symm
              | succ rest =>
                  obtain ⟨e, he, hexp⟩ := longer name t rest rfl (valid name t ht)
                  refine ⟨e, ?_, .inside href hn ht hreach (by omega) hexp⟩
                  rw [resolveAt_inside hn ht hreach]
                  exact he
  | inline shape ih =>
      have hparts : ∀ s ∈ shape.parts, ∃ e,
          expand ⟨b.resolveAt room path, b.description⟩ s = .ok e ∧ b.Expanded path s e := by
        intro s hmem
        obtain ⟨found, hfound⟩ := hs
        obtain ⟨ofPart, hpart, _⟩ := references_part hfound hmem
        exact ih s hmem ⟨ofPart, hpart⟩
      choose! r hr using hparts
      exact ⟨_, expand_inline fun s hs => (hr s hs).1, .inline fun s hs => (hr s hs).2⟩

theorem exists_expanded (hg : Graph.ofSchemas b.schemas = .ok b.graph) (room : Nat) :
    ∀ (path : List String), path.length + room = maxInlineDepth →
      ∀ s : Schema, (∃ found, s.references = .ok found) →
      ∃ e, expand ⟨b.resolveAt room path, b.description⟩ s = .ok e ∧ b.Expanded path s e := by
  have valid : ∀ name s, b.schemas.get? name = some s → ∃ found, s.references = .ok found :=
    fun name s hs => ⟨_, ofSchemas_targets hg hs⟩
  induction room with
  | zero =>
      intro path hlen
      exact exists_expanded_step hlen valid fun _ _ _ h => absurd h (by omega)
  | succ room ih =>
      intro path hlen
      apply exists_expanded_step hlen valid
      intro name s rest hrest hs
      obtain rfl : room = rest := by omega
      refine ih (path ++ [name]) ?_ s hs
      rw [List.length_append, List.length_singleton]
      omega

/-! ### Entries -/

/-- The entry of a declared name is made.  It waits exactly when it looks up a name that waits, and
it is the unfolding of its name where all it looks up are those of theirs. -/
theorem entry_spec (hg : Graph.ofSchemas b.schemas = .ok b.graph) {x : String} {s : Schema}
    (hs : b.schemas.get? x = some s) :
    ∃ entry deferred, b.entry x s = .ok (entry, deferred) ∧
      (deferred = true ↔ entry.type.Awaits b.schemas) ∧
      (entry.type.Awaits b.schemas ↔
        ∃ y, LooksUp b.schemas b.graph x y ∧ (b.lookUp y).type.Awaits b.schemas) ∧
      ∀ E, Unfolds b.schemas b.graph E →
        (∀ y t, LooksUp b.schemas b.graph x y → b.schemas.get? y = some t →
          (b.lookUp y).type.bare = E [y] t) → entry.type.bare = E [x] s := by
  obtain ⟨e, he, hexp⟩ := exists_expanded hg (maxInlineDepth - 1) [x] rfl s
    ⟨_, ofSchemas_targets hg hs⟩
  have hlooks : ∀ y, LooksUp b.schemas b.graph x y ↔
      LooksUpFrom b.schemas b.graph [x] s y := by
    intro y
    constructor
    · rintro ⟨t, ht, hy⟩
      obtain rfl := Option.some.inj (hs.symm.trans ht)
      exact hy
    · exact fun hy => ⟨s, hs, hy⟩
  refine ⟨⟨e.type, describe (b.lookup x) s⟩, e.deferred, ?_, hexp.deferred_iff, ?_, ?_⟩
  · unfold entry
    exact bind_eq_ok.mpr ⟨e, he, rfl⟩
  · simp only [hlooks]
    exact hexp.awaits_iff
  · simp only [hlooks]
    exact hexp.unfolded

end Building

end ApiTypes
