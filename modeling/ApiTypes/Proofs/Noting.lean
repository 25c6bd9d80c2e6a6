import ApiTypes.Notice
import ApiTypes.Proofs.Sequencing

/-! # What a noting computation ends in

A computation that notes things on its way is opened step by step, whatever was noted before.  Two of
them are compared step by step as well, without regard to what they note (`Matches.bind`).  One to
which notes make no difference is a computation that may fail, step by step (`Steady.result_bind`);
where no step fails, it ends in what these make, with what they note (`Ends.bind`).

Main definitions: `Noting.Matches`, `Noting.Steady`, `Noting.Ends`. -/

namespace ApiTypes.Noting

variable {ε α β σ : Type}

theorem run_bind (m : Noting ε α) (f : α → Noting ε β) (before : List Notice) :
    (m >>= f).run before = match (m.run before).1 with
      | .ok a => (f a).run (m.run before).2
      | .error e => (.error e, (m.run before).2) := by
  change (ExceptT.bindCont f (m.run before).1) (m.run before).2 = _
  cases (m.run before).1 with
  | error e => rfl
  | ok a => rfl

theorem lift_ok_bind (a : α) (f : α → Noting ε β) :
    (liftM (.ok a : Except ε α) : Noting ε α) >>= f = f a := rfl

theorem result_bind_pure (m : Noting ε α) (f : α → β) :
    (m >>= fun a => pure (f a)).result = m.result >>= fun a => pure (f a) := by
  unfold result
  rw [run_bind]
  cases (m.run []).1 with
  | error e => rfl
  | ok a => rfl

instance : Stepwise (Noting ε) where
  Yields m a := ∃ before, (m.run before).1 = .ok a
  yields_pure_iff := by
    intro α a b
    constructor
    · rintro ⟨before, h⟩
      exact Except.ok.inj h
    · rintro rfl
      exact ⟨[], rfl⟩
  exists_of_yields_bind := by
    rintro α β m f b ⟨before, h⟩
    rw [run_bind] at h
    cases hm : (m.run before).1 with
    | error e =>
        rw [hm] at h
        cases h
    | ok a =>
        rw [hm] at h
        exact ⟨a, ⟨before, hm⟩, _, h⟩

theorem yields_of_result {m : Noting ε α} {a : α} (h : m.result = .ok a) : Yields m a := ⟨[], h⟩

theorem eq_ok_of_yields_lift {x : Except ε α} {a : α} (h : Yields (liftM x : Noting ε α) a) :
    x = .ok a := by
  obtain ⟨before, h⟩ := h
  exact h

/-! ### Computations that end alike -/

/-- Whatever is noted before each of them, the computations fail with the same error or end in
results that are related. -/
def Matches (R : α → β → Prop) (m : Noting ε α) (m' : Noting ε β) : Prop :=
  ∀ before before', match (m.run before).1, (m'.run before').1 with
    | .ok a, .ok b => R a b
    | .error e, .error e' => e = e'
    | _, _ => False

section Matches
variable {γ δ : Type} {R : α → β → Prop} {m : Noting ε α} {m' : Noting ε β}

theorem Matches.pure {a : α} {b : β} (h : R a b) :
    Matches R (Pure.pure a : Noting ε α) (Pure.pure b) :=
  fun _ _ => h

theorem Matches.lift (x : Except ε α) : Matches Eq (liftM x : Noting ε α) (liftM x) := by
  intro before before'
  cases x <;> rfl

theorem Matches.note (n n' : Notice) : Matches Eq (note n : Noting ε Unit) (note n') :=
  fun _ _ => rfl

theorem Matches.bind {S : γ → δ → Prop} {f : α → Noting ε γ} {f' : β → Noting ε δ}
    (h : Matches R m m') (hf : ∀ a b, Yields m a → Yields m' b → R a b → Matches S (f a) (f' b)) :
    Matches S (m >>= f) (m' >>= f') := by
  intro before before'
  rw [run_bind, run_bind]
  have hboth := h before before'
  cases hm : (m.run before).1 with
  | error e =>
      cases hm' : (m'.run before').1 with
      | error e' => rwa [hm, hm'] at hboth
      | ok b => rw [hm, hm'] at hboth; exact hboth.elim
  | ok a =>
      cases hm' : (m'.run before').1 with
      | error e' => rw [hm, hm'] at hboth; exact hboth.elim
      | ok b =>
          rw [hm, hm'] at hboth
          exact hf a b ⟨before, hm⟩ ⟨before', hm'⟩ hboth _ _

/-- Computations that end in the same go on alike if the rest does. -/
theorem Matches.bind_eq {S : γ → δ → Prop} {m m' : Noting ε α} {f : α → Noting ε γ}
    {f' : α → Noting ε δ} (h : Matches Eq m m') (hf : ∀ a, Yields m a → Matches S (f a) (f' a)) :
    Matches S (m >>= f) (m' >>= f') := by
  refine h.bind ?_
  rintro a _ ha _ rfl
  exact hf a ha

theorem Matches.note_bind {f : Unit → Noting ε α} (n : Notice) (h : Matches R (f ()) m') :
    Matches R (Noting.note n >>= f) m' :=
  fun _ before' => h _ before'

theorem Matches.note_pure {a : α} {b : β} (n n' : Notice) (h : R a b) :
    Matches R (Noting.note n >>= fun _ => Pure.pure a : Noting ε α)
      (Noting.note n' >>= fun _ => Pure.pure b) :=
  (Matches.note n n').bind_eq fun _ _ => .pure h

theorem Matches.mono {S : α → β → Prop} (h : Matches R m m') (hRS : ∀ a b, R a b → S a b) :
    Matches S m m' := by
  intro before before'
  have hboth := h before before'
  cases hm : (m.run before).1 <;> cases hm' : (m'.run before').1 <;> rw [hm, hm'] at hboth
  · exact hboth
  · exact hboth
  · exact hboth
  · exact hRS _ _ hboth

/-- Two lists are mapped alike where their items are, one by one. -/
theorem Matches.mapM₂ {f : γ → Noting ε α} {f' : δ → Noting ε β} {l : List γ} {l' : List δ}
    (h : List.Forall₂ (fun c d => Matches R (f c) (f' d)) l l') :
    Matches (List.Forall₂ R) (l.mapM f) (l'.mapM f') := by
  induction h with
  | nil => exact .pure .nil
  | cons hcd _ ih =>
      rw [List.mapM_cons, List.mapM_cons]
      refine hcd.bind fun a b _ _ hab => ?_
      exact ih.bind fun as bs _ _ hs => .pure (.cons hab hs)

theorem Matches.mapM₂_eq {f : γ → Noting ε α} {f' : δ → Noting ε α} {l : List γ} {l' : List δ}
    (h : List.Forall₂ (fun c d => Matches Eq (f c) (f' d)) l l') :
    Matches Eq (l.mapM f) (l'.mapM f') :=
  (mapM₂ h).mono fun _ _ hs => by rwa [List.forall₂_eq_eq_eq] at hs

theorem Matches.mapM {f f' : γ → Noting ε α} {l : List γ}
    (h : ∀ c ∈ l, Matches Eq (f c) (f' c)) : Matches Eq (l.mapM f) (l.mapM f') :=
  mapM₂_eq (List.forall₂_same.mpr h)

/-- Two runs end alike where their steps keep what relates them. -/
theorem Matches.foldlM₂ {P : γ → δ → Prop} {f : α → γ → Noting ε α} {f' : β → δ → Noting ε β}
    (hstep : ∀ a b c d, R a b → P c d → Matches R (f a c) (f' b d)) {l : List γ} {l' : List δ}
    (h : List.Forall₂ P l l') {a : α} {b : β} (hab : R a b) :
    Matches R (l.foldlM f a) (l'.foldlM f' b) := by
  induction h generalizing a b with
  | nil => exact .pure hab
  | cons hcd _ ih =>
      rw [List.foldlM_cons, List.foldlM_cons]
      exact (hstep a b _ _ hab hcd).bind fun a' b' _ _ hab' => ih hab'

theorem Matches.result_eq {m m' : Noting ε α} (h : Matches Eq m m') : m.result = m'.result := by
  have hboth := h [] []
  unfold result
  cases hm : (m.run []).1 <;> cases hm' : (m'.run []).1 <;> rw [hm, hm'] at hboth
  · rw [hboth]
  · exact hboth.elim
  · exact hboth.elim
  · rw [hboth]

end Matches

/-! ### Computations to which notes make no difference -/

/-- Whatever is noted before it, the computation ends in its result, and an error that it ends in has
the property. -/
structure Steady (P : ε → Prop) (m : Noting ε α) : Prop where
  run_eq : ∀ before, (m.run before).1 = m.result
  error : ∀ e, m.result = .error e → P e

namespace Steady
variable {γ ε' : Type} {P : ε → Prop} {m : Noting ε α} {f : α → Noting ε β}

theorem pure (a : α) : Steady P (Pure.pure a : Noting ε α) := ⟨fun _ => rfl, fun _ h => nomatch h⟩

theorem lift {x : Except ε α} (h : ∀ e, x = .error e → P e) : Steady P (liftM x : Noting ε α) :=
  ⟨fun _ => rfl, h⟩

theorem note (n : Notice) : Steady P (Noting.note n) := ⟨fun _ => rfl, fun _ h => nomatch h⟩

theorem result_of_yields (h : Steady P m) {a : α} (ha : Yields m a) : m.result = .ok a := by
  obtain ⟨before, ha⟩ := ha
  rw [← h.run_eq before, ha]

theorem mono {Q : ε → Prop} (h : Steady P m) (hQ : ∀ e, P e → Q e) : Steady Q m :=
  ⟨h.run_eq, fun e he => hQ e (h.error e he)⟩

/-- What goes on steadily after a result ends as it does alone. -/
theorem result_bind (hf : ∀ a, m.result = .ok a → Steady P (f a)) :
    (m >>= f).result = m.result >>= fun a => (f a).result := by
  unfold result at hf ⊢
  rw [run_bind]
  cases hm : (m.run []).1 with
  | error e => rfl
  | ok a => exact (hf a hm).run_eq _

theorem bind (hm : Steady P m) (hf : ∀ a, Yields m a → Steady P (f a)) : Steady P (m >>= f) := by
  have hresult : (m >>= f).result = m.result >>= fun a => (f a).result :=
    result_bind fun a ha => hf a (yields_of_result ha)
  constructor
  · intro before
    rw [hresult, run_bind, hm.run_eq before]
    cases ha : m.result with
    | error e => rfl
    | ok a => exact (hf a (yields_of_result ha)).run_eq _
  · intro e he
    rw [hresult] at he
    cases ha : m.result with
    | error e' =>
        rw [ha] at he
        cases he
        exact hm.error e ha
    | ok a =>
        rw [ha] at he
        exact (hf a (yields_of_result ha)).error e he

theorem note_pure (n : Notice) (a : α) :
    Steady P (Noting.note n >>= fun _ => Pure.pure a : Noting ε α) :=
  (note n).bind fun _ _ => pure a

theorem mapM {f : γ → Noting ε α} {l : List γ} (h : ∀ c ∈ l, Steady P (f c)) :
    Steady P (l.mapM f) := by
  induction l with
  | nil => exact pure []
  | cons c l ih =>
      rw [List.mapM_cons]
      refine (h c List.mem_cons_self).bind fun a _ => ?_
      exact (ih fun c hc => h c (List.mem_cons_of_mem _ hc)).bind fun as _ => pure (a :: as)

theorem foldlM {f : σ → γ → Noting ε σ} {l : List γ} (h : ∀ s, ∀ c ∈ l, Steady P (f s c)) (s : σ) :
    Steady P (l.foldlM f s) := by
  induction l generalizing s with
  | nil => exact pure s
  | cons c l ih =>
      rw [List.foldlM_cons]
      refine (h s c List.mem_cons_self).bind fun s' _ => ?_
      exact ih (fun s c hc => h s c (List.mem_cons_of_mem _ hc)) s'

theorem result_foldlM {f : σ → γ → Noting ε σ} (h : ∀ s c, Steady P (f s c)) (l : List γ) (s : σ) :
    (l.foldlM f s).result = l.foldlM (fun s c => (f s c).result) s := by
  induction l generalizing s with
  | nil => rfl
  | cons c l ih =>
      rw [List.foldlM_cons, List.foldlM_cons, result_bind fun s' _ => foldlM (fun s c _ => h s c) s']
      congr 1
      funext s'
      exact ih s'

theorem forM_note (ns : List Notice) : Steady P (ns.forM Noting.note) := by
  induction ns with
  | nil => exact pure ()
  | cons n ns ih => exact (note n).bind fun _ _ => ih

theorem run_adapt (f : ε → ε') (m : Noting ε α) (before : List Notice) :
    ((ExceptT.adapt f m).run before).1 = (m.run before).1.mapError f := rfl

theorem adapt {Q : ε' → Prop} {f : ε → ε'} (hm : Steady P m) (hQ : ∀ e, P e → Q (f e)) :
    Steady Q (ExceptT.adapt f m : Noting ε' α) := by
  constructor
  · intro before
    unfold result
    rw [run_adapt, run_adapt, hm.run_eq before]
    rfl
  · intro e he
    change m.result.mapError f = .error e at he
    cases ha : m.result with
    | ok a =>
        rw [ha] at he
        cases he
    | error e' =>
        rw [ha] at he
        cases he
        exact hQ e' (hm.error e' ha)

/-- Steady computations with the same result end alike. -/
theorem matches_of_result_eq {Q : ε → Prop} {m' : Noting ε α} (h : Steady P m) (h' : Steady Q m')
    (heq : m.result = m'.result) : Matches Eq m m' := by
  intro before before'
  rw [h.run_eq before, h'.run_eq before', heq]
  cases m'.result <;> rfl

theorem matches_self (h : Steady P m) : Matches Eq m m := h.matches_of_result_eq h rfl

end Steady

/-! ### Computations that end well -/

/-- Whatever is noted before it, the computation ends in the result and has noted this besides. -/
def Ends (m : Noting ε α) (a : α) (noted : List Notice) : Prop :=
  ∀ before, m.run before = (.ok a, before ++ noted)

namespace Ends
variable {γ : Type} {m : Noting ε α} {a : α} {b : β} {f : α → Noting ε β} {noted more : List Notice}

theorem pure (a : α) : Ends (Pure.pure a : Noting ε α) a [] :=
  fun before => congrArg (Prod.mk _) (List.append_nil before).symm

theorem note (n : Notice) : Ends (Noting.note n : Noting ε Unit) () [n] := fun _ => rfl

theorem bind (hm : Ends m a noted) (hf : Ends (f a) b more) : Ends (m >>= f) b (noted ++ more) := by
  intro before
  rw [run_bind, hm before, ← List.append_assoc]
  exact hf (before ++ noted)

theorem bind_pure (hm : Ends m a noted) (g : α → β) :
    Ends (m >>= fun a => Pure.pure (g a)) (g a) noted := by
  rw [← List.append_nil noted]
  exact hm.bind (pure (g a))

theorem mapM {f : γ → Noting ε α} {g : γ → α} {notes : γ → List Notice} {l : List γ}
    (h : ∀ c ∈ l, Ends (f c) (g c) (notes c)) : Ends (l.mapM f) (l.map g) (l.flatMap notes) := by
  induction l with
  | nil => exact pure []
  | cons c l ih =>
      rw [List.mapM_cons, List.flatMap_cons]
      have ih := ih fun c hc => h c (List.mem_cons_of_mem _ hc)
      exact (h c List.mem_cons_self).bind (ih.bind_pure (g c :: ·))

theorem foldlM {f : σ → γ → Noting ε σ} {g : σ → γ → σ} {notes : γ → List Notice} {l : List γ}
    (h : ∀ s, ∀ c ∈ l, Ends (f s c) (g s c) (notes c)) (s : σ) :
    Ends (l.foldlM f s) (l.foldl g s) (l.flatMap notes) := by
  induction l generalizing s with
  | nil => exact pure s
  | cons c l ih =>
      rw [List.foldlM_cons, List.foldl_cons, List.flatMap_cons]
      exact (h s c List.mem_cons_self).bind (ih (fun s c hc => h s c (List.mem_cons_of_mem _ hc)) _)

end Ends

end ApiTypes.Noting
