import ApiTypes.Proofs.TypeScript.Literals

/-! # Keys of members

A key is written as it is, or as a literal where it has a hyphen, an underscore or a dot.  Such a
literal is read back as the key where the key has no backslash and no line break, and a key that is
written as it is names itself exactly if it is an identifier (`names_fieldKey_iff`).

Main definitions: `Alphabet`, `Alphabet.IsName`, `HasMark`, `Names`. -/

namespace ApiTypes

namespace TypeScript

/-! ### Identifiers -/

/-- The characters of identifiers.  Those beyond ASCII depend on the version of Unicode in use. -/
structure Alphabet where
  isStart : Char → Bool
  isPart : Char → Bool
  isStart_ascii : ∀ c : Char, c.toNat < 0x80 → isStart c = (c.isAlpha || c == '$' || c == '_')
  isPart_ascii : ∀ c : Char, c.toNat < 0x80 → isPart c = (c.isAlphanum || c == '$' || c == '_')

namespace Alphabet

/-- The alphabet without characters beyond ASCII. -/
def ascii : Alphabet where
  isStart c := c.toNat < 0x80 && (c.isAlpha || c == '$' || c == '_')
  isPart c := c.toNat < 0x80 && (c.isAlphanum || c == '$' || c == '_')
  isStart_ascii c hc := by simp [hc]
  isPart_ascii c hc := by simp [hc]

instance : Inhabited Alphabet := ⟨ascii⟩

/-- Is the text one that may name a member: an identifier, or a word that is reserved elsewhere?
Escapes are left out: a name that is written with them is another text than its value. -/
def IsName (A : Alphabet) : List Char → Prop
  | [] => False
  | c :: rest => A.isStart c = true ∧ ∀ d ∈ rest, A.isPart d = true

end Alphabet

/-! ### Keys -/

/-- The text stands for the name as the key of a member: it is that name as an identifier, or a
literal with the name for its value. -/
def Names (A : Alphabet) (text name : List Char) : Prop :=
  text = name ∧ A.IsName name ∨ readLiteral text = some (units name, [])

/-- Is there a hyphen, an underscore or a dot in the name? -/
def HasMark (name : List Char) : Prop := '-' ∈ name ∨ '_' ∈ name ∨ '.' ∈ name

theorem isQuotedKey_iff {name : List Char} : isQuotedKey name = true ↔ HasMark name := by
  unfold isQuotedKey HasMark
  simp only [List.any_eq_true, Bool.or_eq_true, beq_iff_eq]
  constructor
  · rintro ⟨c, hc, (rfl | rfl) | rfl⟩
    · exact .inl hc
    · exact .inr (.inl hc)
    · exact .inr (.inr hc)
  · rintro (h | h | h)
    · exact ⟨_, h, .inl (.inl rfl)⟩
    · exact ⟨_, h, .inl (.inr rfl)⟩
    · exact ⟨_, h, .inr rfl⟩

theorem toList_fieldKey_of_hasMark {name : String} (h : HasMark name.toList) :
    (fieldKey name).toList = '\'' :: (escaped name.toList ++ ['\'']) := by
  unfold fieldKey keyChars
  rw [String.toList_ofList, if_pos (isQuotedKey_iff.mpr h)]
  rfl

theorem fieldKey_of_not_hasMark {name : String} (h : ¬ HasMark name.toList) :
    fieldKey name = name := by
  unfold fieldKey keyChars
  rw [if_neg (isQuotedKey_iff.not.mpr h), String.ofList_toList]

/-- No literal has itself for its value: its quotes are left out. -/
theorem readLiteral_ne_units (s : List Char) : readLiteral s ≠ some (units s, []) := by
  intro h
  unfold readLiteral at h
  split at h
  · next body =>
    obtain ⟨body, τ, rfl, hrun, hτ⟩ := readFrom_eq_some_iff.mp h
    have hweight := hrun.weight
    have hdebt : Scan.plain.debt = 0 := rfl
    have hpos := length_pointUnits_pos '\''.toNat
    rw [hdebt, units_cons, units_append] at hweight
    simp only [List.length_append] at hweight
    omega
  · cases h

end TypeScript

open TypeScript (Alphabet HasMark Names readLiteral units)

/-- A key with a hyphen, an underscore or a dot is written as a literal, any other as it is.  So
where a literal has neither backslashes nor line breaks, what is written names the key exactly if the
key has one of these characters or is an identifier. -/
theorem names_fieldKey_iff (A : Alphabet) (name : String)
    (h : HasMark name.toList → ∀ c ∈ name.toList, c ≠ '\\' ∧ c ≠ '\n' ∧ c ≠ '\r') :
    (HasMark name.toList → readLiteral (fieldKey name).toList = some (units name.toList, [])) ∧
      (¬ HasMark name.toList → fieldKey name = name) ∧
      (Names A (fieldKey name).toList name.toList ↔
        HasMark name.toList ∨ A.IsName name.toList) := by
  have hliteral : HasMark name.toList →
      readLiteral (fieldKey name).toList = some (units name.toList, []) := by
    intro hmark
    rw [TypeScript.toList_fieldKey_of_hasMark hmark]
    exact TypeScript.readFrom_escaped (h hmark) []
  refine ⟨hliteral, TypeScript.fieldKey_of_not_hasMark, ?_⟩
  by_cases hmark : HasMark name.toList
  · exact iff_of_true (.inr (hliteral hmark)) (.inl hmark)
  · rw [TypeScript.fieldKey_of_not_hasMark hmark]
    constructor
    · rintro (⟨_, hname⟩ | hread)
      · exact .inr hname
      · exact absurd hread (TypeScript.readLiteral_ne_units _)
    · rintro (hmark' | hname)
      · exact absurd hmark' hmark
      · exact .inl ⟨rfl, hname⟩

/-- A quote in a key with a mark is no harm. -/
theorem owner_names :
    (HasMark "pet's-owner".toList ∧ ∀ c ∈ "pet's-owner".toList, c ≠ '\\' ∧ c ≠ '\n' ∧ c ≠ '\r') ∧
      fieldKey "pet's-owner" = "'pet\\'s-owner'" ∧
      ∀ A, Names A "'pet\\'s-owner'".toList "pet's-owner".toList := by
  have hplain : ∀ c ∈ "pet's-owner".toList, c ≠ '\\' ∧ c ≠ '\n' ∧ c ≠ '\r' := by simp
  have hmark : HasMark "pet's-owner".toList := .inl (by decide +kernel)
  have hkey : fieldKey "pet's-owner" = "'pet\\'s-owner'" := by decide +kernel
  refine ⟨⟨hmark, hplain⟩, hkey, fun A => ?_⟩
  have h := (names_fieldKey_iff A "pet's-owner" fun _ => hplain).2.2.mpr (.inl hmark)
  rwa [hkey] at h

/-- A key with brackets is written as it is, and is neither an identifier nor a literal. -/
theorem filter_unnamed : fieldKey "filter[name]" = "filter[name]" ∧
    ¬ ∃ A, Names A (fieldKey "filter[name]").toList "filter[name]".toList := by
  have hkey : fieldKey "filter[name]" = "filter[name]" := by decide +kernel
  refine ⟨hkey, ?_⟩
  rintro ⟨A, ⟨_, hname⟩ | hread⟩
  · have hpart : A.isPart '[' = true := hname.2 '[' (by decide +kernel)
    rw [A.isPart_ascii '[' (by decide)] at hpart
    exact absurd hpart (by decide)
  · rw [hkey] at hread
    exact TypeScript.readLiteral_ne_units _ hread

end ApiTypes
