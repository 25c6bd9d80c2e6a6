import ApiTypes.Proofs.Text.Pascal
import ApiTypes.Proofs.TypeScript.Keys
import ApiTypes.TypeName

/-! # Names of types as identifiers

The name of a type starts with a capital and is no reserved word, so it is an identifier exactly if
all its characters may stand in one.  Only the segments of the path and the suffix of the business
can bring in others: a segment with a hyphen or an underscore keeps its letters and digits alone, and
any other is put in as it is but for its first character (`isIdentifier_typeName_iff`).

Main definitions: `reservedWords`, `Alphabet.IsIdentifier`, `IsUrlChar`. -/

namespace ApiTypes

/-! ### Identifiers -/

namespace TypeScript

/-- The words that may not name a type. -/
def reservedWords : List String :=
  ["any", "await", "bigint", "boolean", "break", "case", "catch", "class", "const", "continue",
    "debugger", "default", "delete", "do", "else", "enum", "export", "extends", "false", "finally",
    "for", "function", "if", "implements", "import", "in", "instanceof", "interface", "let",
    "never", "new", "null", "number", "object", "package", "private", "protected", "public",
    "return", "static", "string", "super", "switch", "symbol", "this", "throw", "true", "try",
    "typeof", "undefined", "unknown", "var", "void", "while", "with", "yield"]

namespace Alphabet

/-- May the text name a type? -/
def IsIdentifier (A : Alphabet) (s : List Char) : Prop :=
  A.IsName s ∧ String.ofList s ∉ reservedWords

variable {A : Alphabet}

theorem isPart_of_isAlphanum {c : Char} (h : c.isAlphanum = true) : A.isPart c = true := by
  rw [A.isPart_ascii c (Text.isAscii_of_isAlphanum h), h]
  rfl

/-- A text that starts with a capital is an identifier where the rest may stand in one. -/
theorem isIdentifier_cons_iff {c : Char} (hc : c.isUpper = true) (rest : List Char) :
    A.IsIdentifier (c :: rest) ↔ ∀ d ∈ rest, A.isPart d = true := by
  have halpha : c.isAlpha = true := by
    show (c.isUpper || c.isLower) = true
    rw [hc, Bool.true_or]
  have halphanum : c.isAlphanum = true := by
    show (c.isAlpha || c.isDigit) = true
    rw [halpha, Bool.true_or]
  have hstart : A.isStart c = true := by
    rw [A.isStart_ascii c (Text.isAscii_of_isAlphanum halphanum), halpha]
    rfl
  -- All reserved words start with a small letter.
  have hreserved : String.ofList (c :: rest) ∉ reservedWords := by
    have hlower : ∀ w ∈ reservedWords, (w.toList.head?.any Char.isUpper) = false := by
      decide +kernel
    intro hmem
    have hhead := hlower _ hmem
    rw [String.toList_ofList, List.head?_cons, Option.any_some, hc] at hhead
    cases hhead
  exact ⟨fun h => h.1.2, fun h => ⟨⟨hstart, h⟩, hreserved⟩⟩

end Alphabet

end TypeScript

open TypeScript (Alphabet)

/-! ### Segments -/

/-- The characters of paths: letters, digits and eight others. -/
def IsUrlChar (c : Char) : Prop :=
  c.isAlphanum = true ∨ c ∈ ['/', '{', '}', '.', '-', '_', '~', ':']

instance : DecidablePred IsUrlChar := fun _ => inferInstanceAs (Decidable (_ ∨ _))

theorem IsUrlChar.isAscii {c : Char} (h : IsUrlChar c) : c.toNat < 0x80 := by
  rcases h with h | h
  · exact Text.isAscii_of_isAlphanum h
  · exact (by simp : ∀ c ∈ ['/', '{', '}', '.', '-', '_', '~', ':'], c.toNat < 0x80) c h

namespace TypeName

theorem mem_of_mem_bare {s : List Char} {c : Char} (h : c ∈ bare s) : c ∈ s := by
  unfold bare at h
  rw [List.mem_reverse] at h
  have h := (List.dropWhile_suffix _).subset h
  rw [List.mem_reverse] at h
  exact (List.dropWhile_suffix _).subset h

theorem mem_of_mem_segments {url s : List Char} {c : Char} (hs : s ∈ segments url) (hc : c ∈ s) :
    c ∈ url := by
  obtain ⟨piece, hpiece, rfl⟩ := List.mem_map.mp hs
  have hinfix := Text.infix_of_mem_splitWhere (List.mem_filter.mp hpiece).1
  exact hinfix.subset (mem_of_mem_bare hc)

/-- Of the characters of paths only letters, digits and the underscore may stand in identifiers. -/
theorem isPart_iff {A : Alphabet} {c : Char} (hc : IsUrlChar c) (hunder : c ≠ '_') :
    A.isPart c = true ↔ c.isAlphanum = true := by
  have hdollar : c ≠ '$' := by
    rintro rfl
    exact absurd hc (by decide)
  rw [A.isPart_ascii c hc.isAscii]
  simp [hunder, hdollar]

theorem isUrlChar_toUpper {c : Char} (hc : IsUrlChar c) (hunder : c ≠ '_') :
    IsUrlChar c.toUpper ∧ c.toUpper ≠ '_' :=
  Text.forall_ascii (P := fun c => IsUrlChar c → c ≠ '_' → IsUrlChar c.toUpper ∧ c.toUpper ≠ '_')
    (by decide +kernel) hc.isAscii hc hunder

theorem forall_isPart_segmentName_iff {A : Alphabet} {s : List Char} (h : ∀ c ∈ s, IsUrlChar c) :
    (∀ c ∈ segmentName s, A.isPart c = true) ↔
      '-' ∈ s ∨ '_' ∈ s ∨ ∀ c ∈ s, c.isAlphanum = true := by
  have hascii : ∀ c ∈ s, c.toNat < 0x80 := fun c hc => (h c hc).isAscii
  unfold segmentName
  split
  · next hmark =>
    have hmark : '_' ∈ s ∨ '-' ∈ s := by simpa using hmark
    refine iff_of_true (fun c hc => ?_) (by tauto)
    exact Alphabet.isPart_of_isAlphanum (Text.isAlphanum_of_mem_pascal hascii hc)
  · next hmark =>
    have hmark : '_' ∉ s ∧ '-' ∉ s := by simpa using hmark
    have hcapital : ∀ c ∈ Text.capitalize s, IsUrlChar c ∧ c ≠ '_' := by
      have hall : ∀ c ∈ s, IsUrlChar c ∧ c ≠ '_' :=
        fun c hc => ⟨h c hc, fun heq => hmark.1 (heq ▸ hc)⟩
      cases s with
      | nil => exact hall
      | cons c rest =>
          obtain ⟨hc, hrest⟩ := List.forall_mem_cons.mp hall
          rw [Text.capitalize, Text.upper_ascii hc.1.isAscii, List.singleton_append]
          exact List.forall_mem_cons.mpr ⟨isUrlChar_toUpper hc.1 hc.2, hrest⟩
    rw [← Text.forall_isAlphanum_capitalize_iff hascii, or_iff_right hmark.2, or_iff_right hmark.1]
    exact forall₂_congr fun c hc => isPart_iff (hcapital c hc).1 (hcapital c hc).2

/-! ### The other parts of a name -/

theorem exists_methodName_eq (m : Method) : ∃ c rest, methodName m = c :: rest ∧ c.isUpper = true ∧
    ∀ d ∈ rest, d.isAlphanum = true := by
  cases m <;> exact ⟨_, _, rfl, rfl, List.all_eq_true.mp rfl⟩

theorem isAlphanum_of_mem_suffix {role : Role} : ∀ c ∈ role.suffix, c.isAlphanum = true := by
  cases role <;> exact List.all_eq_true.mp rfl

theorem isAlphanum_of_mem_versionName {version : String} {digits : List Char}
    (h : version.toList = 'v' :: digits) (hdigits : ∀ c ∈ digits, c.isDigit = true) :
    ∀ c ∈ versionName version, c.isAlphanum = true := by
  unfold versionName
  split
  · exact List.forall_mem_nil _
  · rw [h, Text.capitalize, Text.upper_ascii (by decide), List.singleton_append]
    refine List.forall_mem_cons.mpr ⟨by decide, fun c hc => ?_⟩
    show (c.isAlpha || c.isDigit) = true
    rw [hdigits c hc, Bool.or_true]

end TypeName

/-! ### Names of types -/

/-- Where the path has only the characters of paths and the version is a `v` with digits, the name
of a type is an identifier exactly if each segment has a hyphen or an underscore or else only letters
and digits, and the suffix has only characters of identifiers. -/
theorem isIdentifier_typeName_iff (A : Alphabet) (m : Method) (url : String) (role : Role)
    (b : Business) (hurl : ∀ c ∈ url.toList, IsUrlChar c) {digits : List Char}
    (hversion : b.version.toList = 'v' :: digits) (hdigits : ∀ c ∈ digits, c.isDigit = true) :
    A.IsIdentifier (typeName m url role b).toList ↔
      (∀ s ∈ TypeName.segments url.toList,
        '-' ∈ s ∨ '_' ∈ s ∨ ∀ c ∈ s, c.isAlphanum = true) ∧
      ∀ suffix ∈ b.suffix, ∀ c ∈ suffix.toList, A.isPart c = true := by
  have hpart : ∀ {s : List Char}, (∀ c ∈ s, c.isAlphanum = true) → ∀ c ∈ s, A.isPart c = true :=
    fun h c hc => Alphabet.isPart_of_isAlphanum (h c hc)
  have hsegments : (∀ c ∈ (TypeName.segments url.toList).flatMap TypeName.segmentName,
      A.isPart c = true) ↔ ∀ s ∈ TypeName.segments url.toList,
        '-' ∈ s ∨ '_' ∈ s ∨ ∀ c ∈ s, c.isAlphanum = true := by
    rw [List.forall_mem_flatMap]
    refine forall₂_congr fun s hs => TypeName.forall_isPart_segmentName_iff fun c hc => ?_
    exact hurl c (TypeName.mem_of_mem_segments hs hc)
  have hsuffix : (∀ c ∈ (b.suffix.map String.toList).getD [], A.isPart c = true) ↔
      ∀ suffix ∈ b.suffix, ∀ c ∈ suffix.toList, A.isPart c = true := by
    cases b.suffix with
    | none => simp
    | some suffix => simp
  obtain ⟨c, rest, hmethod, hc, hrest⟩ := TypeName.exists_methodName_eq m
  unfold typeName TypeName.chars
  rw [String.toList_ofList, hmethod, List.cons_append, List.cons_append, List.cons_append,
    List.cons_append, Alphabet.isIdentifier_cons_iff hc]
  simp only [List.forall_mem_append, hsegments, hsuffix]
  constructor
  · rintro ⟨⟨⟨⟨_, hs⟩, _⟩, hb⟩, _⟩
    exact ⟨hs, hb⟩
  · rintro ⟨hs, hb⟩
    exact ⟨⟨⟨⟨hpart hrest, hs⟩, hpart TypeName.isAlphanum_of_mem_suffix⟩, hb⟩,
      hpart (TypeName.isAlphanum_of_mem_versionName hversion hdigits)⟩

/-- The clinics of a business at its second version. -/
def clinics : Business where
  version := "v2"
  suffix := some "Vet"

/-- A dot in a segment with a hyphen is left out. -/
theorem clinic_isIdentifier :
    ((∀ c ∈ "/clinics/{clinic.id-no}".toList, IsUrlChar c) ∧
      clinics.version.toList = 'v' :: ['2'] ∧ ∀ c ∈ ['2'], c.isDigit = true) ∧
    typeName .get "/clinics/{clinic.id-no}" .response clinics =
      "GetClinicsClinicIdNoResTypeVetV2" ∧
    ∀ A : Alphabet, A.IsIdentifier
      (typeName .get "/clinics/{clinic.id-no}" .response clinics).toList := by
  have hurl : ∀ c ∈ "/clinics/{clinic.id-no}".toList, IsUrlChar c := by simp [IsUrlChar]
  have hversion : clinics.version.toList = 'v' :: ['2'] := by decide +kernel
  have hdigits : ∀ c ∈ ['2'], c.isDigit = true := by simp
  have hsegments : TypeName.segments "/clinics/{clinic.id-no}".toList =
      ["clinics".toList, "clinic.id-no".toList] := by decide +kernel
  refine ⟨⟨hurl, hversion, hdigits⟩, by decide +kernel, fun A => ?_⟩
  refine (isIdentifier_typeName_iff A .get _ .response clinics hurl hversion hdigits).mpr ⟨?_, ?_⟩
  · rw [hsegments]
    simp
  · rintro suffix ⟨rfl⟩
    have hsuffix : ∀ c ∈ "Vet".toList, c.isAlphanum = true := by simp
    exact fun c hc => Alphabet.isPart_of_isAlphanum (hsuffix c hc)

/-- A dot in any other segment is pasted into the name. -/
theorem dotted_not_isIdentifier :
    typeName .get "/pets.json" .response {} = "GetPets.jsonResType" ∧
      ¬ ∃ A : Alphabet, A.IsIdentifier (typeName .get "/pets.json" .response {}).toList := by
  have hname : typeName .get "/pets.json" .response {} = "GetPets.jsonResType" := by decide +kernel
  refine ⟨hname, ?_⟩
  rintro ⟨A, h⟩
  rw [hname] at h
  have hdot : A.isPart '.' = true := h.1.2 '.' (by decide +kernel)
  rw [A.isPart_ascii '.' (by decide)] at hdot
  exact absurd hdot (by decide)

end ApiTypes
