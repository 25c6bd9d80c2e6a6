import ApiTypes.Proofs.TypeScript.Literals

/-! # Reading enumerations

The type of an enumeration of texts is a union of literals.  It is read back as the texts of the
enumeration, in order, exactly if none of them has a backslash or a line break
(`enumeration_read_iff`).

Main definitions: `readUnion`. -/

namespace ApiTypes

namespace TypeScript

/-! ### The reader -/

theorem length_of_readLiteral {s rest : List Char} {v : List Nat}
    (h : readLiteral s = some (v, rest)) : rest.length < s.length := by
  unfold readLiteral at h
  split at h
  · obtain ⟨body, _, rfl, _, _⟩ := readFrom_eq_some_iff.mp h
    simp only [List.length_cons, List.length_append]
    omega
  · cases h

/-- The values of literals with bars between them; blanks may stand around a bar. -/
def readUnion (s : List Char) : Option (List (List Nat)) :=
  match _h : readLiteral s with
  | none => none
  | some (v, rest) =>
    match _hrest : Text.trimStart rest with
    | [] => some [v]
    | c :: others =>
      if c = '|' then (readUnion (Text.trimStart others)).map (v :: ·) else none
termination_by s.length
decreasing_by
  have hliteral := length_of_readLiteral _h
  have hrest : (Text.trimStart rest).length ≤ rest.length := (List.dropWhile_suffix _).length_le
  have hothers : (Text.trimStart others).length ≤ others.length :=
    (List.dropWhile_suffix _).length_le
  rw [_hrest, List.length_cons] at hrest
  omega

theorem readUnion_eq {s rest : List Char} {v : List Nat} (h : readLiteral s = some (v, rest)) :
    readUnion s = match Text.trimStart rest with
      | [] => some [v]
      | c :: others =>
        if c = '|' then (readUnion (Text.trimStart others)).map (v :: ·) else none := by
  rw [readUnion]
  split
  · next h' => exact absurd (h.symm.trans h') (by simp)
  · next h' =>
    cases h.symm.trans h'
    split
    · next hrest => rw [hrest]
    · next hrest => rw [hrest]

theorem readUnion_of_end {s rest : List Char} {v : List Nat} (h : readLiteral s = some (v, rest))
    (hrest : Text.trimStart rest = []) : readUnion s = some [v] := by
  rw [readUnion_eq h, hrest]

theorem readUnion_of_bar {s rest others : List Char} {v : List Nat}
    (h : readLiteral s = some (v, rest)) (hrest : Text.trimStart rest = '|' :: others) :
    readUnion s = (readUnion (Text.trimStart others)).map (v :: ·) := by
  rw [readUnion_eq h, hrest]
  exact if_pos rfl

/-- The first value of a union is that of the literal in front. -/
theorem exists_of_readUnion {s : List Char} {v : List Nat} {vs : List (List Nat)}
    (h : readUnion s = some (v :: vs)) : ∃ rest, readLiteral s = some (v, rest) := by
  cases hread : readLiteral s with
  | none =>
      rw [readUnion] at h
      split at h
      · cases h
      · next h' => exact absurd (hread.symm.trans h') (by simp)
  | some p =>
      obtain ⟨w, rest⟩ := p
      refine ⟨rest, ?_⟩
      rw [readUnion_eq hread] at h
      split at h
      · cases h
        rfl
      · split at h
        · obtain ⟨ws, _, h⟩ := Option.map_eq_some_iff.mp h
          cases h
          rfl
        · cases h

/-! ### Unions of texts -/

theorem readLiteral_literalChars (s : String) (rest : List Char) :
    readLiteral (literalChars (.text s) ++ rest) =
      readFrom .plain (escaped s.toList ++ '\'' :: rest) := by
  change readFrom .plain (escaped s.toList ++ ['\''] ++ rest) = _
  rw [List.append_assoc, List.singleton_append]

/-- Behind a text of a union there is nothing, or else a space in front of the next quote. -/
theorem getLast?_of_unionChars (ss : List String) {v : List Nat} {r : List Char}
    (h : readFrom .plain (unionChars (ss.map .text)) = some (v, r)) : v.getLast? = some 0x20 := by
  cases ss with
  | nil => cases h
  | cons s ss =>
      cases h
      rfl

theorem readLiteral_union {s : String} (h : IsPlain s.toList) (rest : List Char) :
    readLiteral (literalChars (.text s) ++ rest) = some (units s.toList, rest) :=
  (readLiteral_literalChars s rest).trans (readFrom_escaped h rest)

theorem isPlain_of_readUnion {s : String} {ss : List String} {vs : List (List Nat)}
    (h : readUnion (literalChars (.text s) ++ unionChars (ss.map .text)) =
      some (units s.toList :: vs)) : IsPlain s.toList := by
  obtain ⟨rest, hread⟩ := exists_of_readUnion h
  rw [readLiteral_literalChars] at hread
  exact isPlain_of_readFrom (fun _ _ => getLast?_of_unionChars ss) hread

/-- A union of texts is read as these texts exactly if none has backslashes or line breaks. -/
theorem readUnion_texts_iff (s : String) (ss : List String) :
    readUnion (literalChars (.text s) ++ unionChars (ss.map .text)) =
        some ((s :: ss).map fun t => units t.toList) ↔ ∀ t ∈ s :: ss, IsPlain t.toList := by
  induction ss generalizing s with
  | nil =>
      rw [List.forall_mem_singleton]
      exact ⟨isPlain_of_readUnion, fun h => readUnion_of_end (readLiteral_union h _) rfl⟩
  | cons s' ss ih =>
      rw [List.forall_mem_cons, ← ih s']
      have hbar : Text.trimStart (unionChars ((s' :: ss).map .text)) =
          '|' :: ' ' :: (literalChars (.text s') ++ unionChars (ss.map .text)) := rfl
      have hrest : IsPlain s.toList →
          readUnion (literalChars (.text s) ++ unionChars ((s' :: ss).map .text)) =
            (readUnion (literalChars (.text s') ++ unionChars (ss.map .text))).map
              (units s.toList :: ·) :=
        fun h => readUnion_of_bar (readLiteral_union h _) hbar
      constructor
      · intro h
        have hs := isPlain_of_readUnion h
        rw [hrest hs] at h
        obtain ⟨vs, hvs, heq⟩ := Option.map_eq_some_iff.mp h
        exact ⟨hs, hvs.trans (congrArg some (List.cons.inj heq).2)⟩
      · rintro ⟨hs, h⟩
        rw [hrest hs, h]
        rfl

end TypeScript

open TypeScript (readUnion units)

/-- The union of an enumeration of texts is read as these texts exactly if none of them has a
backslash or a line break: these are written as they are. -/
theorem enumeration_read_iff (base : Primitive) (force : Bool) (s : String) (ss : List String) :
    readUnion ((Descriptor.enumeration base ((s :: ss).map .text)).typeText force).toList =
        some ((s :: ss).map fun t => units t.toList) ↔
      ∀ t ∈ s :: ss, ∀ c ∈ t.toList, c ≠ '\\' ∧ c ≠ '\n' ∧ c ≠ '\r' := by
  unfold Descriptor.typeText
  rw [String.toList_ofList]
  exact TypeScript.readUnion_texts_iff s ss

/-- Quotes and bars are no harm. -/
example : readUnion ((Descriptor.enumeration .string [.text "it's", .text "' | '"]).typeText
    false).toList = some [units "it's".toList, units "' | '".toList] := by
  decide +kernel

/-- A backslash at the end of a text takes the quote behind it, and one inside is no part of what is
read. -/
theorem folder_unread :
    (Descriptor.enumeration .string [.text "C:\\"]).typeText false = "'C:\\'" ∧
      readUnion "'C:\\'".toList = none ∧
      (Descriptor.enumeration .string [.text "\\d+"]).typeText false = "'\\d+'" ∧
      readUnion "'\\d+'".toList = some [units "d+".toList] := by
  decide +kernel

end ApiTypes
