import ApiTypes.Resolution.Graph
import Mathlib.Data.List.Basic
import Mathlib.Logic.Relation
import Mathlib.Tactic.ByContra

/-! # Reachability in the graph of references

`explore` searches with a stack and the names seen so far.  Three facts about its result give its
meaning: everything in it is at the end of a path from the stack (`explore_sound`), it contains the
stack and the names seen (`subset_explore`), and it is closed under edges (`explore_closed`).  The
last two need enough steps, one for each name on the stack and one for each edge out of a name that
is not seen yet (`Edges.unseen`).

Main statements: `mem_reachable_iff` and `reachesAny_iff`, membership in the result is the end of a
path of one edge or more. -/

namespace ApiTypes

namespace Edges

variable (e : Edges)

/-- There is an edge from `a` to `b`. -/
def Adjacent (a b : String) : Prop := b ∈ e.targets a

/-- A path of one edge or more leads from `a` to `b`. -/
def Reaches : String → String → Prop := Relation.TransGen e.Adjacent

/-- The number of edges out of names that are not seen. -/
def unseen (seen : List String) : Nat := count (e.filter fun t => !seen.contains t.1)

theorem count_cons (t : String × List String) : count (t :: e) = t.2.length + count e := rfl

theorem unseen_nil : e.unseen [] = e.count := by
  unfold unseen
  rw [List.filter_eq_self.mpr (by simp)]

/-- The search pays for the targets of a name when it sees the name. -/
theorem unseen_cons_add_targets_le (name : String) (seen : List String) (h : name ∉ seen) :
    e.unseen (name :: seen) + (e.targets name).length ≤ e.unseen seen := by
  induction e with
  | nil => simp [unseen, targets, count]
  | cons t rest ih =>
      have hle : unseen rest (name :: seen) ≤ unseen rest seen :=
        Nat.le_trans (Nat.le_add_right _ _) ih
      unfold unseen at ih hle ⊢
      unfold targets at ih ⊢
      rw [List.filter_cons, List.filter_cons, List.lookup_cons]
      by_cases ht : t.1 = name
      · subst ht
        have hs : (!seen.contains t.1) = true := by simpa using h
        rw [if_neg (by simp), if_pos hs, count_cons]
        simp only [beq_self_eq_true, Option.getD_some]
        omega
      · have hb : (name == t.1) = false := by simpa using fun hn => ht hn.symm
        rw [hb]
        by_cases hs : t.1 ∈ seen
        · rw [if_neg (by simp [hs]), if_neg (by simpa using hs)]
          exact ih
        · rw [if_pos (by simp [hs, ht]), if_pos (by simpa using hs), count_cons, count_cons]
          simp only
          omega

end Edges

namespace Graph

variable (e : Edges)

/-! ### The search -/

theorem explore_sound : ∀ (steps : Nat) (stack seen : List String) (x : String),
    x ∈ explore e steps stack seen →
      x ∈ seen ∨ ∃ s ∈ stack, Relation.ReflTransGen e.Adjacent s x
  | 0, _, _, _, h => Or.inl h
  | _ + 1, [], _, _, h => Or.inl h
  | steps + 1, name :: stack, seen, x, h => by
      rw [explore] at h
      split at h
      · rcases explore_sound steps stack seen x h with hs | ⟨s, hs, hp⟩
        · exact Or.inl hs
        · exact Or.inr ⟨s, List.mem_cons_of_mem _ hs, hp⟩
      · rcases explore_sound steps _ _ x h with hs | ⟨s, hs, hp⟩
        · rcases List.mem_cons.mp hs with rfl | hs
          · exact Or.inr ⟨x, List.mem_cons_self, Relation.ReflTransGen.refl⟩
          · exact Or.inl hs
        · rcases List.mem_append.mp hs with ht | hs
          · exact Or.inr ⟨name, List.mem_cons_self, Relation.ReflTransGen.head ht hp⟩
          · exact Or.inr ⟨s, List.mem_cons_of_mem _ hs, hp⟩

theorem subset_explore_seen : ∀ (steps : Nat) (stack seen : List String),
    seen ⊆ explore e steps stack seen
  | 0, _, _, _, h => h
  | _ + 1, [], _, _, h => h
  | steps + 1, name :: stack, seen, x, h => by
      rw [explore]
      split
      · exact subset_explore_seen steps stack seen h
      · exact subset_explore_seen steps _ _ (List.mem_cons_of_mem _ h)

/-- A step that does not see a new name uses up one name on the stack; one that does uses up its
targets as well. -/
theorem steps_suffice {steps : Nat} {name : String} {stack seen : List String}
    (h : e.unseen seen + (name :: stack).length ≤ steps + 1) :
    e.unseen seen + stack.length ≤ steps ∧ (name ∉ seen →
      e.unseen (name :: seen) + (e.targets name ++ stack).length ≤ steps) := by
  rw [List.length_cons] at h
  refine ⟨by omega, ?_⟩
  intro hn
  have := e.unseen_cons_add_targets_le name seen hn
  rw [List.length_append]
  omega

theorem subset_explore : ∀ (steps : Nat) (stack seen : List String),
    e.unseen seen + stack.length ≤ steps → stack ⊆ explore e steps stack seen
  | _, [], _, _ => List.nil_subset _
  | 0, name :: stack, seen, h => by simp at h
  | steps + 1, name :: stack, seen, h => by
      obtain ⟨hold, hnew⟩ := steps_suffice e h
      rw [explore]
      split
      · rename_i hs
        refine List.cons_subset.mpr ⟨?_, subset_explore steps stack seen hold⟩
        exact subset_explore_seen e steps stack seen (by simpa using hs)
      · rename_i hs
        refine List.cons_subset.mpr ⟨?_, fun x hx => ?_⟩
        · exact subset_explore_seen e steps _ _ List.mem_cons_self
        · exact subset_explore steps _ _ (hnew (by simpa using hs)) (List.mem_append_right _ hx)

/-- If every target of a name seen is seen or on the stack, every target of a name found is
found. -/
theorem explore_closed : ∀ (steps : Nat) (stack seen : List String),
    e.unseen seen + stack.length ≤ steps →
    (∀ a ∈ seen, ∀ b, e.Adjacent a b → b ∈ seen ∨ b ∈ stack) →
    ∀ a ∈ explore e steps stack seen, ∀ b, e.Adjacent a b → b ∈ explore e steps stack seen
  | 0, stack, seen, hn, h, a, ha, b, hb => by
      have hstack : stack = [] := List.length_eq_zero_iff.mp (by omega)
      subst hstack
      simpa [explore] using h a ha b hb
  | _ + 1, [], _, _, h, a, ha, b, hb => by simpa [explore] using h a ha b hb
  | steps + 1, name :: stack, seen, hn, h, a, ha, b, hb => by
      obtain ⟨hold, hnew⟩ := steps_suffice e hn
      rw [explore] at ha ⊢
      split at ha
      · rename_i hs
        rw [if_pos hs]
        refine explore_closed steps stack seen hold ?_ a ha b hb
        intro a ha b hb
        rcases h a ha b hb with hb | hb
        · exact Or.inl hb
        · rcases List.mem_cons.mp hb with rfl | hb
          · exact Or.inl (by simpa using hs)
          · exact Or.inr hb
      · rename_i hs
        rw [if_neg hs]
        refine explore_closed steps _ _ (hnew (by simpa using hs)) ?_ a ha b hb
        intro a ha b hb
        rcases List.mem_cons.mp ha with rfl | ha
        · exact Or.inr (List.mem_append_left _ hb)
        · rcases h a ha b hb with hb | hb
          · exact Or.inl (List.mem_cons_of_mem _ hb)
          · rcases List.mem_cons.mp hb with rfl | hb
            · exact Or.inl List.mem_cons_self
            · exact Or.inr (List.mem_append_right _ hb)

/-! ### What is reached -/

/-- The names found from a name are those at the ends of paths of one edge or more. -/
theorem mem_reachable_iff (a b : String) : b ∈ reachable e a ↔ e.Reaches a b := by
  unfold reachable
  have hsteps : e.unseen [] + (e.targets a).length ≤ e.count + (e.targets a).length :=
    Nat.add_le_add_right (Nat.le_of_eq e.unseen_nil) _
  constructor
  · intro h
    rcases explore_sound e _ _ _ b h with hs | ⟨s, hs, hp⟩
    · cases hs
    · exact Relation.TransGen.head' hs hp
  · intro h
    induction h with
    | single hb => exact subset_explore e _ _ _ hsteps hb
    | tail _ hb ih => exact explore_closed e _ _ _ hsteps (by simp) _ ih _ hb

theorem lookup_reach (name : String) :
    (ofEdges e).reach.lookup name = if name ∈ e.map Prod.fst then some (reachable e name) else none := by
  unfold ofEdges
  simp only
  generalize reachable e = r
  induction e with
  | nil => simp
  | cons t rest ih =>
      rw [List.map_cons, List.lookup_cons, ih]
      by_cases h : name = t.1
      · simp [h]
      · have hb : (name == t.1) = false := by simpa using h
        simp only [hb, List.map_cons, List.mem_cons, h, false_or]

theorem targets_eq_nil {name : String} (h : name ∉ e.map Prod.fst) : e.targets name = [] := by
  have hl : e.lookup name = none := by
    rw [List.lookup_eq_none_iff]
    intro t ht
    simpa using fun hn : name = t.1 => h (hn ▸ List.mem_map_of_mem ht)
  simp [Edges.targets, hl]

/-- A name that starts a path has an entry of its own. -/
theorem mem_of_reaches {a b : String} (h : e.Reaches a b) : a ∈ e.map Prod.fst := by
  by_contra ha
  obtain ⟨c, hc, _⟩ := Relation.TransGen.head'_iff.mp h
  unfold Edges.Adjacent at hc
  rw [targets_eq_nil e ha] at hc
  cases hc

theorem reachesAny_iff (name : String) (others : List String) :
    (ofEdges e).reachesAny name others = true ↔ ∃ o ∈ others, e.Reaches name o := by
  unfold reachesAny
  rw [lookup_reach]
  by_cases h : name ∈ e.map Prod.fst
  · rw [if_pos h]
    simp [mem_reachable_iff]
  · rw [if_neg h]
    simp only [Bool.false_eq_true, false_iff]
    rintro ⟨o, _, ho⟩
    exact h (mem_of_reaches e ho)

end Graph

end ApiTypes
