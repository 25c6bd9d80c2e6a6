import Mathlib.Data.List.Forall2

/-! # Steps that may fail

A sequence of steps that may fail is opened step by step: what ends in a result ends in one after
each of its steps.  What holds of a run over a list is shown for one step and carried along.

Main definitions: `Stepwise`.
Main statements: `Yields.foldlM` (a run that ends keeps what its steps keep), `mapM_eq_ok_iff` (a
list is mapped when each of its items is), `exists_of_foldlM_eq_error` (a run that fails, fails at
one of its steps) and `foldlM_induction` (a run whose steps succeed and keep an invariant ends, and
keeps it). -/

namespace ApiTypes

variable {ε α β σ : Type}

/-! ### Computations that end in a result -/

/-- Computations that may end in a result, one step after the other. -/
class Stepwise (m : Type → Type) [Monad m] where
  /-- The computation may end in the result. -/
  Yields {α : Type} : m α → α → Prop
  yields_pure_iff {α : Type} {a b : α} : Yields (pure a) b ↔ a = b
  exists_of_yields_bind {α β : Type} {x : m α} {f : α → m β} {b : β} :
    Yields (x >>= f) b → ∃ a, Yields x a ∧ Yields (f a) b

export Stepwise (Yields yields_pure_iff)

section Stepwise
variable {m : Type → Type} [Monad m] [Stepwise m]

theorem Stepwise.Yields.bind {x : m α} {f : α → m β} {b : β} (h : Yields (x >>= f) b) :
    ∃ a, Yields x a ∧ Yields (f a) b :=
  exists_of_yields_bind h

/-- What every step keeps, of the state and what came before, a whole run keeps. -/
theorem Stepwise.Yields.foldlM {f : σ → α → m σ} {l : List α} {s₀ s : σ}
    (h : Yields (l.foldlM f s₀) s) (I : List α → σ → Prop) (start : I [] s₀)
    (step : ∀ pre a post s s', l = pre ++ a :: post → I pre s → Yields (f s a) s' →
      I (pre ++ [a]) s') : I l s := by
  have run : ∀ (post pre : List α) (s₀ : σ), l = pre ++ post → I pre s₀ →
      Yields (post.foldlM f s₀) s → I l s := by
    intro post
    induction post with
    | nil =>
        intro pre s₀ hl hs h
        rw [List.foldlM_nil, yields_pure_iff] at h
        rw [List.append_nil] at hl
        exact h ▸ hl ▸ hs
    | cons a post ih =>
        intro pre s₀ hl hs h
        rw [List.foldlM_cons] at h
        obtain ⟨s₁, hstep, h⟩ := h.bind
        exact ih (pre ++ [a]) s₁ (by simp [hl]) (step pre a post s₀ s₁ hl hs hstep) h
  exact run l [] s₀ rfl start h

variable [LawfulMonad m]

theorem Stepwise.Yields.map {x : m α} {f : α → β} {b : β} (h : Yields (f <$> x) b) :
    ∃ a, Yields x a ∧ f a = b := by
  rw [map_eq_pure_bind] at h
  obtain ⟨a, ha, h⟩ := h.bind
  exact ⟨a, ha, yields_pure_iff.mp h⟩

theorem Stepwise.Yields.mapM {f : α → m β} {l : List α} {r : List β} (h : Yields (l.mapM f) r) :
    List.Forall₂ (fun a b => Yields (f a) b) l r := by
  induction l generalizing r with
  | nil =>
      rw [List.mapM_nil, yields_pure_iff] at h
      subst h
      exact .nil
  | cons a l ih =>
      rw [List.mapM_cons] at h
      obtain ⟨b, hb, h⟩ := h.bind
      obtain ⟨bs, hbs, h⟩ := h.bind
      obtain rfl := yields_pure_iff.mp h
      exact .cons hb (ih hbs)

theorem Stepwise.Yields.exists_of_mem {f : α → m β} {l : List α} {r : List β}
    (h : Yields (l.mapM f) r) {b : β} (hb : b ∈ r) : ∃ a ∈ l, Yields (f a) b := by
  have heach := h.mapM
  clear h
  induction heach with
  | nil => cases hb
  | cons hfirst _ ih =>
      rcases List.mem_cons.mp hb with rfl | hb
      · exact ⟨_, List.mem_cons_self, hfirst⟩
      · obtain ⟨a, ha, hfa⟩ := ih hb
        exact ⟨a, List.mem_cons_of_mem _ ha, hfa⟩

end Stepwise

/-! ### Results and errors -/

theorem bind_eq_ok {x : Except ε α} {f : α → Except ε β} {b : β} :
    (x >>= f) = .ok b ↔ ∃ a, x = .ok a ∧ f a = .ok b := by
  cases x with
  | error e => simp [bind, Except.bind]
  | ok a => simp [bind, Except.bind]

theorem bind_eq_error {x : Except ε α} {f : α → Except ε β} {e : ε} :
    (x >>= f) = .error e ↔ x = .error e ∨ ∃ a, x = .ok a ∧ f a = .error e := by
  cases x with
  | error e' => simp [bind, Except.bind]
  | ok a => simp [bind, Except.bind]

theorem toOption_eq_some_iff {x : Except ε α} {a : α} : x.toOption = some a ↔ x = .ok a := by
  cases x <;> simp [Except.toOption]

instance : Stepwise (Except ε) where
  Yields x a := x = .ok a
  yields_pure_iff := ⟨Except.ok.inj, congrArg Except.ok⟩
  exists_of_yields_bind := bind_eq_ok.mp

theorem mapM_eq_ok_iff {f : α → Except ε β} {l : List α} {r : List β} :
    l.mapM f = .ok r ↔ List.Forall₂ (fun a b => f a = .ok b) l r := by
  constructor
  · intro h
    exact Stepwise.Yields.mapM (m := Except ε) h
  · intro h
    induction h with
    | nil => rfl
    | cons hb _ ih =>
        rw [List.mapM_cons]
        exact bind_eq_ok.mpr ⟨_, hb, bind_eq_ok.mpr ⟨_, ih, rfl⟩⟩

theorem exists_mapM_eq_ok {f : α → Except ε β} {l : List α} (h : ∀ a ∈ l, ∃ b, f a = .ok b) :
    ∃ r, l.mapM f = .ok r := by
  induction l with
  | nil => exact ⟨[], rfl⟩
  | cons a l ih =>
      obtain ⟨b, hb⟩ := h a List.mem_cons_self
      obtain ⟨r, hr⟩ := ih fun a ha => h a (List.mem_cons_of_mem _ ha)
      exact ⟨b :: r, mapM_eq_ok_iff.mpr (.cons hb (mapM_eq_ok_iff.mp hr))⟩

theorem bind_pure_eq_error {x : Except ε α} {f : α → β} {e : ε} :
    (x >>= fun a => pure (f a)) = .error e ↔ x = .error e := by
  cases x <;> simp [bind, Except.bind, pure, Except.pure]

theorem bind_pure_eq_ok {x : Except ε α} {f : α → β} :
    (∃ b, (x >>= fun a => pure (f a)) = .ok b) ↔ ∃ a, x = .ok a := by
  cases x <;> simp [bind, Except.bind, pure, Except.pure]

theorem mapM_cons_eq_error_iff {f : α → Except ε β} {a : α} {l : List α} {e : ε} :
    (a :: l).mapM f = .error e ↔ f a = .error e ∨ (∃ b, f a = .ok b) ∧ l.mapM f = .error e := by
  rw [List.mapM_cons, bind_eq_error]
  simp only [bind_pure_eq_error, exists_and_right]

theorem mapM_append_eq_error_iff {f : α → Except ε β} {l l' : List α} {e : ε} :
    (l ++ l').mapM f = .error e ↔
      l.mapM f = .error e ∨ (∃ r, l.mapM f = .ok r) ∧ l'.mapM f = .error e := by
  rw [List.mapM_append, bind_eq_error]
  simp only [bind_pure_eq_error, exists_and_right]

theorem exists_of_mapM_eq_error {f : α → Except ε β} {l : List α} {e : ε}
    (h : l.mapM f = .error e) : ∃ a ∈ l, f a = .error e := by
  induction l with
  | nil => cases h
  | cons a l ih =>
      rw [List.mapM_cons] at h
      rcases bind_eq_error.mp h with h | ⟨b, _, h⟩
      · exact ⟨a, List.mem_cons_self, h⟩
      rcases bind_eq_error.mp h with h | ⟨bs, _, h⟩
      · obtain ⟨a', ha', h⟩ := ih h
        exact ⟨a', List.mem_cons_of_mem _ ha', h⟩
      · cases h

/-- A run that fails, fails at the first of its steps that does. -/
theorem exists_of_foldlM_eq_error {f : σ → α → Except ε σ} {l : List α} {s : σ} {e : ε}
    (h : l.foldlM f s = .error e) : ∃ before a after s', l = before ++ a :: after ∧
      before.foldlM f s = .ok s' ∧ f s' a = .error e := by
  induction l generalizing s with
  | nil => cases h
  | cons a l ih =>
      rw [List.foldlM_cons] at h
      rcases bind_eq_error.mp h with h | ⟨s₁, hs₁, h⟩
      · exact ⟨[], a, l, s, rfl, rfl, h⟩
      · obtain ⟨before, a', after, s', rfl, hbefore, h⟩ := ih h
        refine ⟨a :: before, a', after, s', rfl, ?_, h⟩
        rw [List.foldlM_cons, hs₁]
        exact hbefore

/-- Runs whose steps agree on the list are the same. -/
theorem foldlM_congr {f f' : σ → α → Except ε σ} {l : List α}
    (h : ∀ s, ∀ a ∈ l, f s a = f' s a) (s₀ : σ) : l.foldlM f s₀ = l.foldlM f' s₀ := by
  induction l generalizing s₀ with
  | nil => rfl
  | cons a l ih =>
      rw [List.foldlM_cons, List.foldlM_cons, h s₀ a List.mem_cons_self]
      exact bind_congr fun s => ih (fun s b hb => h s b (List.mem_cons_of_mem a hb)) s

/-- If every step from a state that satisfies the invariant of what came before succeeds and
establishes the invariant of what came so far, the whole run does. -/
theorem foldlM_induction {f : σ → α → Except ε σ} (I : List α → σ → Prop) {l : List α} {s₀ : σ}
    (start : I [] s₀)
    (step : ∀ pre a post s, l = pre ++ a :: post → I pre s →
      ∃ s', f s a = .ok s' ∧ I (pre ++ [a]) s') :
    ∃ s, l.foldlM f s₀ = .ok s ∧ I l s := by
  have run : ∀ (post pre : List α) (s : σ), l = pre ++ post → I pre s →
      ∃ s', post.foldlM f s = .ok s' ∧ I l s' := by
    intro post
    induction post with
    | nil =>
        intro pre s hl hs
        rw [List.append_nil] at hl
        exact ⟨s, rfl, hl ▸ hs⟩
    | cons a post ih =>
        intro pre s hl hs
        obtain ⟨s₁, hf, hs₁⟩ := step pre a post s hl hs
        obtain ⟨s', hrun, hs'⟩ := ih (pre ++ [a]) s₁ (by simp [hl]) hs₁
        refine ⟨s', ?_, hs'⟩
        rw [List.foldlM_cons, hf]
        exact hrun
  exact run l [] s₀ rfl start

end ApiTypes
