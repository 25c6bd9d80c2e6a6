import ApiTypes.Proofs.Text.Words
import ApiTypes.Text.Pascal

/-! # Case of ASCII texts

The words of a text are its letters and digits, in order (`flatten_pascalWords`).  So a text in
Pascal case has only letters and digits where the text is ASCII (`isAlphanum_of_mem_pascal`), and a
capital in front brings in nothing else either (`forall_isAlphanum_capitalize_iff`). -/

namespace ApiTypes.Text

/-! ### Words -/

theorem flatten_caseWords (mode : WordMode) (word s : List Char) :
    (caseWords mode word s).flatten = word.reverse ++ s := by
  fun_induction caseWords mode word s with
  | case1 mode word hword => simp_all
  | case2 mode word hword => simp
  | case3 mode word c => simp
  | case4 mode word c d rest h ih => simp [ih]
  | case5 mode word c d rest h h' ih => simp [ih]
  | case6 mode word c d rest h h' ih => simp [ih]

/-- The words that Pascal case is made of. -/
def pascalWords (s : List Char) : List (List Char) :=
  (splitWhere (fun c => !isAlphanumeric c) s).flatMap (caseWords .fresh [])

theorem pascal_eq (s : List Char) : pascal s = (pascalWords s).flatMap pascalWord := rfl

theorem flatten_pascalWords (s : List Char) :
    (pascalWords s).flatten = s.filter isAlphanumeric := by
  have hwords : ∀ pieces : List (List Char),
      (pieces.flatMap (caseWords .fresh [])).flatten = pieces.flatten := by
    intro pieces
    induction pieces with
    | nil => rfl
    | cons piece pieces ih =>
        rw [List.flatMap_cons, List.flatten_append, ih, flatten_caseWords]
        rfl
  unfold pascalWords
  rw [hwords, flatten_splitWhere]
  simp only [Bool.not_not]

/-! ### ASCII -/

/-- What holds of every ASCII character, by trying them all. -/
theorem forall_ascii {P : Char → Prop} (h : ∀ n < 0x80, P (Char.ofNat n)) {c : Char}
    (hc : c.toNat < 0x80) : P c := by
  have hc := h c.toNat hc
  rwa [Char.ofNat_toNat] at hc

theorem isAscii_of_isAlphanum {c : Char} (h : c.isAlphanum = true) : c.toNat < 0x80 := by
  have h : ((c.isUpper || c.isLower) || c.isDigit) = true := h
  simp only [Bool.or_eq_true] at h
  rcases h with (hupper | hlower) | hdigit
  · have hrange : 65 ≤ c.toNat ∧ c.toNat ≤ 90 := of_decide_eq_true hupper
    omega
  · have hrange : c.toNat ≤ 122 := of_decide_eq_true (Bool.and_eq_true_iff.mp hlower).2
    omega
  · have hrange : c.toNat ≤ 57 := of_decide_eq_true (Bool.and_eq_true_iff.mp hdigit).2
    omega

theorem isAlphanum_toUpper {c : Char} (hc : c.toNat < 0x80) :
    c.toUpper.isAlphanum = c.isAlphanum :=
  forall_ascii (P := fun c => c.toUpper.isAlphanum = c.isAlphanum) (by decide +kernel) hc

theorem isAlphanum_toLower {c : Char} (hc : c.toNat < 0x80) :
    c.toLower.isAlphanum = c.isAlphanum :=
  forall_ascii (P := fun c => c.toLower.isAlphanum = c.isAlphanum) (by decide +kernel) hc

theorem upper_ascii {c : Char} (hc : c.toNat < 0x80) : upper c = [c.toUpper] := if_pos hc

theorem lower_ascii {c : Char} (hc : c.toNat < 0x80) : lower c = [c.toLower] := if_pos hc

theorem isAlphanumeric_ascii {c : Char} (hc : c.toNat < 0x80) :
    isAlphanumeric c = c.isAlphanum := if_pos hc

section
variable {s : List Char} (h : ∀ c ∈ s, c.toNat < 0x80)
include h

theorem lowerWord_ascii : lowerWord s = s.map Char.toLower := by
  induction s with
  | nil => rfl
  | cons c rest ih =>
      have hc := h c List.mem_cons_self
      have hrest := ih fun d hd => h d (List.mem_cons_of_mem c hd)
      cases rest with
      | nil =>
          have hsigma : c ≠ 'Σ' := by
            rintro rfl
            exact absurd hc (by decide)
          rw [lowerWord, if_neg hsigma, lower_ascii hc]
          rfl
      | cons d rest =>
          rw [lowerWord, hrest, lower_ascii hc]
          · rfl
          · exact List.cons_ne_nil d rest

theorem forall_isAlphanum_capitalize_iff :
    (∀ c ∈ capitalize s, c.isAlphanum = true) ↔ ∀ c ∈ s, c.isAlphanum = true := by
  cases s with
  | nil => rfl
  | cons c rest =>
      have hc := h c List.mem_cons_self
      rw [capitalize, upper_ascii hc, List.singleton_append, List.forall_mem_cons,
        List.forall_mem_cons, isAlphanum_toUpper hc]

/-- In Pascal case an ASCII text is letters and digits. -/
theorem isAlphanum_of_mem_pascal {c : Char} (hc : c ∈ pascal s) : c.isAlphanum = true := by
  rw [pascal_eq] at hc
  obtain ⟨w, hw, hc⟩ := List.mem_flatMap.mp hc
  have hword : ∀ d ∈ w, d.toNat < 0x80 ∧ d.isAlphanum = true := by
    intro d hd
    have hmem : d ∈ (pascalWords s).flatten := List.mem_flatten_of_mem hw hd
    rw [flatten_pascalWords, List.mem_filter] at hmem
    have hascii := h d hmem.1
    rw [isAlphanumeric_ascii hascii] at hmem
    exact ⟨hascii, hmem.2⟩
  cases w with
  | nil => cases hc
  | cons d rest =>
      obtain ⟨hd, hrest⟩ := List.forall_mem_cons.mp hword
      rw [pascalWord, upper_ascii hd.1, List.singleton_append,
        lowerWord_ascii fun e he => (hrest e he).1] at hc
      rcases List.mem_cons.mp hc with rfl | hc
      · rw [isAlphanum_toUpper hd.1, hd.2]
      · obtain ⟨e, he, rfl⟩ := List.mem_map.mp hc
        rw [isAlphanum_toLower (hrest e he).1, (hrest e he).2]

end

end ApiTypes.Text
