import ApiTypes.Files.Tree
import Mathlib.Logic.Basic

/-! # What making and writing do to a file tree

Where a path leads depends on which ways lead to directories and on nothing else
(`SameDirectories.locate`), and writing a file makes and removes no directory
(`sameDirectories_of_write`).  Making a directory adds directories on the way to it, where there was
nothing, and changes nothing else (`makeDirs_frame`); one that is there stays
(`makeDirs_of_isDirectory`).  Trees that agree but in what one file holds
still do when the same is made or written in both (`AgreeBeside.makeDirs`, `AgreeBeside.write`).

Main definitions: `SameDirectories`, `through`, `leadsTo`, `AgreeBeside`. -/

namespace ApiTypes.FileTree

variable {t u : FileTree} {way other : List String} {p text : String}

/-! ### Entries -/

theorem lookup_put (way other : List String) (e : Entry) : ∀ l : List (List String × Entry),
    (put way e l).lookup other = if other = way then some e else l.lookup other
  | [] => by
      by_cases h : other = way
      · simp [put, h]
      · have hb : (other == way) = false := by simpa using h
        simp [put, List.lookup_cons, h, hb]
  | (w, f) :: rest => by
      by_cases hw : w = way
      · subst hw
        by_cases h : other = w
        · simp [put, h]
        · have hb : (other == w) = false := by simpa using h
          simp [put, List.lookup_cons, h, hb]
      · by_cases ho : other = w
        · subst ho
          simp [put, hw]
        · have hb : (other == w) = false := by simpa using ho
          simp [put, hw, List.lookup_cons, hb, lookup_put way other e rest]

theorem get?_set (t : FileTree) (h : way ≠ []) (e : Entry) (other : List String) :
    (t.set way e).get? other = if other = way then some e else t.get? other := by
  by_cases hother : other = []
  · subst hother
    exact (if_neg (Ne.symm h)).symm
  · have hempty : ¬ other.isEmpty = true := by simpa using hother
    unfold get?
    rw [if_neg hempty, if_neg hempty]
    exact lookup_put way other e t.entries

theorem ne_nil_of_free (h : t.isDirectory way = false) : way ≠ [] := by
  rintro rfl
  cases h

theorem free_of_none (h : t.get? way = none) : t.isDirectory way = false := by
  unfold isDirectory
  rw [h]
  rfl

theorem free_of_file {content : FileContent} (h : t.get? way = some (.file content)) :
    t.isDirectory way = false := by
  unfold isDirectory
  rw [h]
  rfl

/-! ### Where a path leads -/

/-- Where a path leads, whether there is anything or not. -/
def leadsTo (t : FileTree) (p : String) : List String := (Path.names p).foldl step (t.start p)

theorem walk_eq {segments : List String} (h : t.walk way segments = some other) :
    other = segments.foldl step way := by
  induction segments generalizing way with
  | nil => exact (Option.some.inj h).symm
  | cons s rest ih =>
      rw [walk] at h
      split at h
      · exact ih h
      · cases h

theorem walk_append (way first rest : List String) :
    t.walk way (first ++ rest) = (t.walk way first).bind fun w => t.walk w rest := by
  induction first generalizing way with
  | nil => rfl
  | cons s first ih =>
      rw [List.cons_append, walk, walk]
      split
      · exact ih _
      · rfl

theorem locate_eq (h : t.locate p = some way) : way = (Path.segments p).foldl step (t.start p) := by
  unfold locate at h
  split at h
  · exact walk_eq h
  · cases h

/-- The trees have the same directories. -/
structure SameDirectories (t u : FileTree) : Prop where
  current : t.current = u.current
  isDirectory : ∀ way, t.isDirectory way = u.isDirectory way

namespace SameDirectories

theorem symm (h : SameDirectories t u) : SameDirectories u t :=
  ⟨h.current.symm, fun way => (h.isDirectory way).symm⟩

theorem trans {v : FileTree} (h : SameDirectories t u) (h' : SameDirectories u v) :
    SameDirectories t v :=
  ⟨h.current.trans h'.current, fun way => (h.isDirectory way).trans (h'.isDirectory way)⟩

theorem start (h : SameDirectories t u) (p : String) : t.start p = u.start p := by
  unfold FileTree.start
  rw [h.current]

theorem walk (h : SameDirectories t u) (way segments : List String) :
    t.walk way segments = u.walk way segments := by
  induction segments generalizing way with
  | nil => rfl
  | cons s rest ih => rw [FileTree.walk, FileTree.walk, h.isDirectory, ih]

theorem locate (h : SameDirectories t u) (p : String) : t.locate p = u.locate p := by
  unfold FileTree.locate
  rw [h.start, h.walk]

end SameDirectories

theorem readText_of_entry {way : List String} (hway : t.locate p = some way)
    (h : t.get? way = some (.file (.text text))) : t.readText p = some text := by
  unfold readText
  rw [hway, Option.bind_some, h]

/-! ### Writing -/

theorem write_eq_some_iff : t.write p text = some u ↔
    endsInName p = true ∧ ∃ way, t.locate p = some way ∧ t.isDirectory way = false ∧
      t.set way (.file (.text text)) = u := by
  unfold write
  cases endsInName p with
  | false => simp
  | true =>
      cases t.locate p with
      | none => simp
      | some way => cases h : t.isDirectory way <;> simp [h]

theorem get?_of_write (h : t.write p text = some u) : ∃ way, t.locate p = some way ∧
    ∀ other, u.get? other = if other = way then some (.file (.text text)) else t.get? other := by
  obtain ⟨_, way, hway, hfree, rfl⟩ := write_eq_some_iff.mp h
  exact ⟨way, hway, get?_set _ (ne_nil_of_free hfree) _⟩

/-- Writing a file makes and removes no directory. -/
theorem sameDirectories_of_write (h : t.write p text = some u) : SameDirectories t u := by
  obtain ⟨_, way, _, hfree, rfl⟩ := write_eq_some_iff.mp h
  refine ⟨rfl, fun other => ?_⟩
  have hset := get?_set t (ne_nil_of_free hfree) (.file (.text text)) other
  by_cases hother : other = way
  · subst hother
    rw [hfree]
    exact (free_of_file (hset.trans (if_pos rfl))).symm
  · unfold isDirectory
    rw [hset, if_neg hother]

/-- Whether a file can be written does not hang on what is written. -/
theorem write_isSome_congr (t : FileTree) (p text text' : String) :
    (t.write p text).isSome = (t.write p text').isSome := by
  unfold write
  split
  · rfl
  · cases t.locate p with
    | none => rfl
    | some way =>
        simp only [Option.bind_some]
        split <;> rfl

theorem SameDirectories.write_isSome (h : SameDirectories t u) (p text : String) :
    (t.write p text).isSome = (u.write p text).isSome := by
  unfold FileTree.write
  rw [h.locate]
  split
  · rfl
  · cases u.locate p with
    | none => rfl
    | some way =>
        simp only [Option.bind_some, h.isDirectory way]
        cases u.isDirectory way <;> rfl

/-! ### Making directories -/

/-- The ways that segments lead through. -/
def through (way : List String) : List String → List (List String)
  | [] => []
  | s :: rest => step way s :: through (step way s) rest

/-- One segment leads to a directory, or one is made there, or nothing more is made. -/
theorem makeWay_cons (t : FileTree) (way : List String) (s : String) (rest : List String) :
    t.makeWay way (s :: rest) = (t, false) ∨
      t.makeWay way (s :: rest) = t.makeWay (step way s) rest ∨
      t.get? (step way s) = none ∧
        t.makeWay way (s :: rest) = (t.set (step way s) .directory).makeWay (step way s) rest := by
  rw [makeWay]
  split
  · exact Or.inl rfl
  · dsimp only
    split
    · exact Or.inr (Or.inl rfl)
    · exact Or.inl rfl
    · next hnone =>
      split
      · exact Or.inl rfl
      · exact Or.inr (Or.inr ⟨hnone, rfl⟩)

/-- Directories are made where segments lead through and there was nothing. -/
theorem makeWay_frame (t : FileTree) (way segments other : List String) :
    (t.makeWay way segments).1.get? other = t.get? other ∨
      other ∈ through way segments ∧ t.get? other = none ∧
        (t.makeWay way segments).1.get? other = some .directory := by
  induction segments generalizing t way with
  | nil => exact Or.inl rfl
  | cons s rest ih =>
      rcases makeWay_cons t way s rest with h | h | ⟨hnone, h⟩
      · rw [h]
        exact Or.inl rfl
      · rw [h]
        exact (ih t _).imp_right fun h => ⟨List.mem_cons_of_mem _ h.1, h.2⟩
      · have hset : ∀ other, (t.set (step way s) .directory).get? other =
            if other = step way s then some .directory else t.get? other :=
          get?_set _ (ne_nil_of_free (free_of_none hnone)) _
        rw [h]
        by_cases hother : other = step way s
        · subst hother
          refine Or.inr ⟨List.mem_cons_self, hnone, ?_⟩
          rcases ih (t.set (step way s) .directory) (step way s) with h | ⟨_, _, h⟩
          · rw [h, hset, if_pos rfl]
          · exact h
        · have hsame := (hset other).trans (if_neg hother)
          rw [← hsame]
          exact (ih _ _).imp_right fun h => ⟨List.mem_cons_of_mem _ h.1, h.2⟩

/-- Without steps back, segments lead no less deep than anything that they lead through. -/
theorem length_le_foldl_step {segments : List String} (h : ".." ∉ segments) (way : List String) :
    way.length ≤ (segments.foldl step way).length := by
  induction segments generalizing way with
  | nil => exact Nat.le_refl _
  | cons s rest ih =>
      rw [List.mem_cons, not_or] at h
      have hstep : way.length ≤ (step way s).length := by
        unfold step
        split
        · exact Nat.le_refl _
        · rw [if_neg fun heq => h.1 heq.symm, List.length_append]
          exact Nat.le_add_right _ _
      exact Nat.le_trans hstep (ih h.2 _)

theorem length_le_of_mem_through {segments : List String} (h : ".." ∉ segments)
    (hmem : other ∈ through way segments) : other.length ≤ (segments.foldl step way).length := by
  induction segments generalizing way with
  | nil => cases hmem
  | cons s rest ih =>
      rw [List.mem_cons, not_or] at h
      rcases List.mem_cons.mp hmem with rfl | hmem
      · exact length_le_foldl_step h.2 _
      · exact ih h.2 hmem

theorem current_makeWay (t : FileTree) (way segments : List String) :
    (t.makeWay way segments).1.current = t.current := by
  induction segments generalizing t way with
  | nil => rfl
  | cons s rest ih =>
      rcases makeWay_cons t way s rest with h | h | ⟨_, h⟩
      · rw [h]
      · rw [h, ih]
      · rw [h, ih]
        rfl

theorem current_makeDirs (t : FileTree) (p : String) : (t.makeDirs p).1.current = t.current := by
  unfold makeDirs
  split
  · exact current_makeWay t _ _
  · rfl

/-- Directories are made on the way to the path and where there was nothing. -/
theorem makeDirs_frame (t : FileTree) (p : String) (other : List String) :
    (t.makeDirs p).1.get? other = t.get? other ∨
      other ∈ through (t.start p) (Path.names p) ∧ t.get? other = none ∧
        (t.makeDirs p).1.get? other = some .directory := by
  unfold makeDirs
  split
  · exact makeWay_frame t _ _ other
  · exact Or.inl rfl

/-- A directory that is there need not be made. -/
theorem makeWay_of_walk {segments last : List String}
    (h : t.walk way segments = some last) (hlast : t.isDirectory last = true) :
    t.makeWay way segments = (t, true) := by
  induction segments generalizing way with
  | nil => rfl
  | cons s rest ih =>
      rw [walk] at h
      split at h
      · next husable =>
        have hnext : t.get? (step way s) = some .directory := by
          cases rest with
          | nil =>
              obtain rfl := Option.some.inj h
              exact eq_of_beq hlast
          | cons s' rest =>
              rw [walk] at h
              split at h
              · next hdirectory => exact eq_of_beq (Bool.and_eq_true_iff.mp hdirectory).1
              · cases h
        rw [makeWay, if_neg (by simp [(Bool.and_eq_true_iff.mp husable).2])]
        dsimp only
        rw [hnext]
        exact ih h
      · cases h

theorem makeDirs_of_isDirectory (h : t.locate p = some way) (hway : t.isDirectory way = true) :
    t.makeDirs p = (t, true) := by
  unfold locate at h
  split at h
  · next husable =>
    unfold makeDirs
    rw [if_pos (Bool.and_eq_true_iff.mp husable).1]
    unfold Path.segments at h
    split at h
    · -- The slash at the end is one more step, which stays where it is.
      rw [walk_append] at h
      obtain ⟨last, hlast, h⟩ := Option.bind_eq_some_iff.mp h
      obtain rfl := walk_eq h
      exact makeWay_of_walk hlast hway
    · exact makeWay_of_walk h hway
  · cases h

/-- A directory that is there counts as one that can be made. -/
theorem makeDirs_iff :
    ((∃ way, t.locate p = some way ∧ t.isDirectory way = true) ∨ (t.makeDirs p).2 = true) ↔
      (t.makeDirs p).2 = true := by
  constructor
  · rintro (⟨way, hway, hdirectory⟩ | h)
    · rw [makeDirs_of_isDirectory hway hdirectory]
    · exact h
  · exact Or.inr

/-! ### Trees that differ in one file -/

/-- At the way each tree has a file, and at all others the trees agree. -/
structure AgreeBeside (way : List String) (t u : FileTree) : Prop where
  current : t.current = u.current
  others : ∀ other, other ≠ way → t.get? other = u.get? other
  left : ∃ content, t.get? way = some (.file content)
  right : ∃ content, u.get? way = some (.file content)

theorem agreeBeside_set {content content' : FileContent} (h : t.get? way = some (.file content)) :
    AgreeBeside way t (t.set way (.file content')) := by
  have hset := get?_set t (ne_nil_of_free (free_of_file h)) (.file content')
  refine ⟨rfl, ?_, ⟨content, h⟩, ⟨content', (hset way).trans (if_pos rfl)⟩⟩
  intro other hother
  rw [hset, if_neg hother]

namespace AgreeBeside

theorem sameDirectories (h : AgreeBeside way t u) : SameDirectories t u := by
  refine ⟨h.current, fun other => ?_⟩
  by_cases hother : other = way
  · subst hother
    obtain ⟨content, ht⟩ := h.left
    obtain ⟨content', hu⟩ := h.right
    rw [free_of_file ht, free_of_file hu]
  · unfold isDirectory
    rw [h.others other hother]

theorem set (h : AgreeBeside way t u) (hother : other ≠ []) {e : Entry}
    (he : other = way → ∃ content, e = .file content) :
    AgreeBeside way (t.set other e) (u.set other e) := by
  have hfile : ∀ {v : FileTree}, (∃ content, v.get? way = some (.file content)) →
      ∃ content, (v.set other e).get? way = some (.file content) := by
    intro v hv
    rw [get?_set _ hother]
    split
    · next heq =>
      obtain ⟨content, rfl⟩ := he heq.symm
      exact ⟨content, rfl⟩
    · exact hv
  refine ⟨h.current, ?_, hfile h.left, hfile h.right⟩
  intro w hw
  rw [get?_set _ hother, get?_set _ hother, h.others w hw]

theorem makeWay (h : AgreeBeside way t u) (start segments : List String) :
    (t.makeWay start segments).2 = (u.makeWay start segments).2 ∧
      AgreeBeside way (t.makeWay start segments).1 (u.makeWay start segments).1 := by
  induction segments generalizing t u start with
  | nil => exact ⟨rfl, h⟩
  | cons s rest ih =>
      rw [FileTree.makeWay, FileTree.makeWay]
      dsimp only
      split
      · exact ⟨rfl, h⟩
      · by_cases hway : step start s = way
        · -- There a file is in the way in both trees.
          obtain ⟨content, ht⟩ := h.left
          obtain ⟨content', hu⟩ := h.right
          rw [hway, ht, hu]
          exact ⟨rfl, h⟩
        · rw [h.others _ hway]
          cases hentry : u.get? (step start s) with
          | some e =>
              cases e with
              | file content => exact ⟨rfl, h⟩
              | directory => exact ih h _
          | none =>
              dsimp only
              split
              · exact ⟨rfl, h⟩
              · have hne := ne_nil_of_free (free_of_none hentry)
                exact ih (h.set hne fun heq => (hway heq).elim) _

theorem makeDirs (h : AgreeBeside way t u) (p : String) :
    (t.makeDirs p).2 = (u.makeDirs p).2 ∧
      AgreeBeside way (t.makeDirs p).1 (u.makeDirs p).1 := by
  unfold FileTree.makeDirs
  split
  · rw [h.sameDirectories.start]
    exact h.makeWay _ _
  · exact ⟨rfl, h⟩

theorem write {t' u' : FileTree} (h : AgreeBeside way t u) (ht : t.write p text = some t')
    (hu : u.write p text = some u') : AgreeBeside way t' u' := by
  obtain ⟨_, w, hw, hfree, rfl⟩ := write_eq_some_iff.mp ht
  obtain ⟨_, w', hw', _, rfl⟩ := write_eq_some_iff.mp hu
  rw [h.sameDirectories.locate, hw'] at hw
  obtain rfl := Option.some.inj hw
  exact h.set (ne_nil_of_free hfree) fun _ => ⟨_, rfl⟩

end AgreeBeside

end ApiTypes.FileTree
