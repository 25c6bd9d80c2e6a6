import ApiTypes.Files.Path
import ApiTypes.Proofs.Text.Words

/-! # Paths of files below a directory

A file name joined to the path of a directory has the names of that path before it, however the path
ends (`segments_join`), and starts where the path starts (`isAbsolute_join`).

Main definitions: `Path.IsFileName`. -/

namespace ApiTypes

namespace Path

/-- The text names a file: it has no slash and is no step to a directory. -/
structure IsFileName (name : String) : Prop where
  slash : ∀ c ∈ name.toList, (c == '/') = false
  empty : name ≠ ""
  idle : name ≠ "."
  above : name ≠ ".."

instance (name : String) : Decidable (IsFileName name) :=
  decidable_of_iff
    (name.toList.all (· != '/') = true ∧ name ≠ "" ∧ name ≠ "." ∧ name ≠ "..")
    ⟨fun h => ⟨by simpa using h.1, h.2.1, h.2.2.1, h.2.2.2⟩,
      fun h => ⟨by simpa using h.slash, h.empty, h.idle, h.above⟩⟩

variable {name : String}

theorem IsFileName.getLast? (h : IsFileName name) :
    ∃ c, name.toList.getLast? = some c ∧ (c == '/') = false := by
  have hne : name.toList ≠ [] := fun heq => h.empty (String.toList_eq_nil_iff.mp heq)
  exact ⟨_, List.getLast?_eq_some_getLast hne, h.slash _ (List.getLast_mem hne)⟩

theorem IsFileName.names (h : IsFileName name) : names name = [name] := by
  unfold Path.names
  rw [Text.splitWhere_of_uncut h.slash]
  simp [String.ofList_toList, h.empty]

theorem IsFileName.isAbsolute (h : IsFileName name) : isAbsolute name = false := by
  unfold Path.isAbsolute
  cases hname : name.toList with
  | nil => rfl
  | cons c rest =>
      have hc := h.slash c (hname ▸ List.mem_cons_self)
      simpa using hc

theorem names_append_slash (base rest : String) :
    names (base ++ "/" ++ rest) = names base ++ names rest := by
  unfold names
  rw [String.toList_append, String.toList_append, List.append_assoc]
  change List.filter _ (List.map _ (Text.splitWhere _ (base.toList ++ '/' :: rest.toList))) = _
  rw [Text.splitWhere_append_cut (by rfl), List.map_append, List.filter_append]

theorem join_cases (h : IsFileName name) (base : String) :
    (base = "" ∨ base.toList.getLast? = some '/') ∧ join base name = base ++ name ∨
      base ≠ "" ∧ join base name = base ++ "/" ++ name := by
  unfold join
  rw [h.isAbsolute, if_neg Bool.false_ne_true]
  split
  · next hends => exact Or.inl ⟨by simpa using hends, rfl⟩
  · next hopen => exact Or.inr ⟨by rintro rfl; exact hopen rfl, rfl⟩

theorem names_join (h : IsFileName name) (base : String) :
    names (join base name) = names base ++ [name] := by
  rcases join_cases h base with ⟨rfl | hslash, hjoin⟩ | ⟨_, hjoin⟩
  · rw [hjoin, String.empty_append, h.names]
    rfl
  · -- The slash at the end of the directory is the one between it and the file.
    obtain ⟨front, hfront⟩ := List.getLast?_eq_some_iff.mp hslash
    have hbase : base = String.ofList front ++ "/" := by
      apply String.toList_injective
      simp [hfront]
    have hnames : names base = names (String.ofList front) := by
      rw [hbase, ← String.append_empty (s := String.ofList front ++ "/"), names_append_slash]
      exact List.append_nil _
    rw [hjoin, hnames, hbase, names_append_slash, h.names]
  · rw [hjoin, names_append_slash, h.names]

theorem getLast?_join (h : IsFileName name) (base : String) :
    (join base name).toList.getLast? = name.toList.getLast? := by
  obtain ⟨c, hc, _⟩ := h.getLast?
  rcases join_cases h base with ⟨_, hjoin⟩ | ⟨_, hjoin⟩
  · rw [hjoin]
    simp [hc]
  · rw [hjoin]
    simp [List.getLast?_cons, hc]

/-- A file has the segments of its directory before its name. -/
theorem segments_join (h : IsFileName name) (base : String) :
    segments (join base name) = names base ++ [name] := by
  obtain ⟨c, hc, hslash⟩ := h.getLast?
  have hends : ¬ ((some c == some '/') = true) := by simpa using hslash
  unfold segments
  rw [getLast?_join h, hc, names_join h, if_neg hends]

theorem isAbsolute_append {base : String} (h : base ≠ "") (rest : String) :
    isAbsolute (base ++ rest) = isAbsolute base := by
  unfold isAbsolute
  cases hbase : base.toList with
  | nil => exact (h (String.toList_eq_nil_iff.mp hbase)).elim
  | cons c s => simp [hbase]

theorem isAbsolute_join (h : IsFileName name) (base : String) :
    isAbsolute (join base name) = isAbsolute base := by
  rcases join_cases h base with ⟨rfl | hslash, hjoin⟩ | ⟨hbase, hjoin⟩
  · rw [hjoin, String.empty_append, h.isAbsolute]
    rfl
  · have hbase : base ≠ "" := by
      rintro rfl
      cases hslash
    rw [hjoin, isAbsolute_append hbase]
  · rw [hjoin, String.append_assoc, isAbsolute_append hbase]

end Path

end ApiTypes
