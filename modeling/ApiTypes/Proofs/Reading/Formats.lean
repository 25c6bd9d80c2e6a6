import ApiTypes.Proofs.Reading.Brackets

/-! # Descriptions whose format is not said

A description is looked for in JSON first and in YAML where that is none (`FirstRead`).  The first
character decides which of the two is read, so some texts are read in the wrong one (`Unasked`):
YAML that begins with a brace, and JSON that is a list.  What is read of all others is what is
looked for, and of these nothing is (`ofText_eq_ok_iff`).

Main definitions: `Api.FirstRead`, `Api.Unasked`. -/

namespace ApiTypes

/-! ### White space -/

theorem isBlank_of_isSpace {c : Char} (h : Json.isSpace c = true) : Text.isBlank c = true := by
  simp only [Json.isSpace, Bool.or_eq_true, beq_iff_eq] at h
  rcases h with ((rfl | rfl) | rfl) | rfl <;> decide

/-- What comes first after white space of JSON comes first after any, unless it is blank. -/
theorem trimStart_of_skipSpace {s tail : List Char} {c : Char} (hc : Text.isBlank c = false)
    (h : Json.skipSpace s = c :: tail) : Text.trimStart s = c :: tail := by
  induction s with
  | nil => cases h
  | cons d rest ih =>
      unfold Json.skipSpace at h
      unfold Text.trimStart
      by_cases hd : Json.isSpace d = true
      · rw [List.dropWhile_cons_of_pos hd] at h
        rw [List.dropWhile_cons_of_pos (isBlank_of_isSpace hd)]
        exact ih h
      · rw [List.dropWhile_cons_of_neg hd] at h
        obtain ⟨rfl, rfl⟩ := List.cons.inj h
        rw [List.dropWhile_cons_of_neg (by simp [hc])]

/-! ### The first character of JSON -/

namespace Json

/-- The bracket that a list or an object begins with. -/
def bracket? : Json → Option Char
  | .list _ => some '['
  | .object _ => some '{'
  | _ => none

theorem eq_of_word {w : List Char} {v v' : Json} {s rest : List Char}
    (h : word w v s = some (v', rest)) : v' = v := by
  unfold word at h
  split at h
  · exact (Prod.mk.inj (Option.some.inj h)).1.symm
  · cases h

theorem bracket?_of_numeral {negative : Bool} {s rest : List Char} {v : Json}
    (h : numeral negative s = some (v, rest)) : v.bracket? = none := by
  obtain ⟨⟨whole, _⟩, _, h⟩ := Option.bind_eq_some_iff.mp h
  obtain ⟨⟨fraction, _⟩, _, h⟩ := Option.bind_eq_some_iff.mp h
  obtain ⟨⟨exponent, _⟩, _, h⟩ := Option.bind_eq_some_iff.mp h
  obtain ⟨rfl, rfl⟩ := Prod.mk.inj (Option.some.inj h)
  cases Numeral.ofDigits negative whole fraction exponent <;> rfl

/-- A list or an object begins with its bracket. -/
theorem skipSpace_of_value {fuel : Nat} {s rest : List Char} {v : Json} {c : Char}
    (h : value fuel s = some (v, rest)) (hc : v.bracket? = some c) :
    ∃ tail, skipSpace s = c :: tail := by
  cases fuel with
  | zero => simp [value] at h
  | succ fuel =>
      rw [value] at h
      split at h
      · rw [eq_of_word h] at hc
        cases hc
      · rw [eq_of_word h] at hc
        cases hc
      · rw [eq_of_word h] at hc
        cases hc
      · obtain ⟨⟨t, _⟩, _, heq⟩ := Option.map_eq_some_iff.mp h
        obtain ⟨rfl, rfl⟩ := Prod.mk.inj heq
        cases t <;> cases hc
      · next tail htail =>
        obtain ⟨items, rfl⟩ : ∃ items, v = .list items := by
          split at h
          · exact ⟨_, (Prod.mk.inj (Option.some.inj h)).1.symm⟩
          · obtain ⟨⟨items, _⟩, _, heq⟩ := Option.map_eq_some_iff.mp h
            exact ⟨items, (Prod.mk.inj heq).1.symm⟩
        obtain rfl := Option.some.inj hc
        exact ⟨tail, htail⟩
      · next tail htail =>
        obtain ⟨members, rfl⟩ : ∃ members, v = .object members := by
          split at h
          · exact ⟨_, (Prod.mk.inj (Option.some.inj h)).1.symm⟩
          · obtain ⟨⟨members, _⟩, _, heq⟩ := Option.map_eq_some_iff.mp h
            exact ⟨members, (Prod.mk.inj heq).1.symm⟩
        obtain rfl := Option.some.inj hc
        exact ⟨tail, htail⟩
      · rw [bracket?_of_numeral h] at hc
        cases hc
      · rw [bracket?_of_numeral h] at hc
        cases hc

/-- Only lists and objects have fields. -/
theorem exists_bracket_of_fields? {names : List String} {needed : Nat} {p : At} {fs : Fields At}
    (h : p.fields? names needed = some fs) :
    p.value.bracket? = some '{' ∨ p.value.bracket? = some '[' := by
  unfold At.fields? at h
  split at h
  · next hvalue => exact Or.inl (by rw [hvalue]; rfl)
  · next hvalue => exact Or.inr (by rw [hvalue]; rfl)
  · cases h

end Json

namespace Api
variable {s : String} {api : Api}

/-- A description in JSON begins with a brace or a bracket. -/
theorem skipSpace_of_ofJson (h : ofJson s = .ok api) :
    ∃ tail, Json.skipSpace s.toList = '{' :: tail ∨ Json.skipSpace s.toList = '[' :: tail := by
  unfold ofJson at h
  split at h
  · cases h
  · next api' hapi =>
    obtain ⟨v, hv, hapi⟩ := Option.bind_eq_some_iff.mp hapi
    obtain ⟨⟨read, rest⟩, hread, _⟩ := Option.map_eq_some_iff.mp hapi
    have hyields : Yields (Reading.api (⟨v, Json.maxLevels⟩ : Json.At)) read := ⟨_, rest, hread⟩
    obtain ⟨fs, hfs, _⟩ := hyields.bind
    obtain ⟨⟨v', _⟩, hvalue, hv⟩ := Option.bind_eq_some_iff.mp hv
    obtain rfl : v' = v := by
      dsimp only at hv
      split at hv
      · exact Option.some.inj hv
      · cases hv
    rcases Json.exists_bracket_of_fields? (Reading.eq_some_of_yields_ofOption hfs) with hc | hc
    · obtain ⟨tail, htail⟩ := Json.skipSpace_of_value hvalue hc
      exact ⟨tail, Or.inl htail⟩
    · obtain ⟨tail, htail⟩ := Json.skipSpace_of_value hvalue hc
      exact ⟨tail, Or.inr htail⟩

theorem startsObject_of_brace {tail : List Char} (h : Json.skipSpace s.toList = '{' :: tail) :
    startsObject s = true := by
  unfold startsObject
  rw [trimStart_of_skipSpace (by decide) h]
  rfl

theorem startsObject_of_bracket {tail : List Char} (h : Json.skipSpace s.toList = '[' :: tail) :
    startsObject s = false := by
  unfold startsObject
  rw [trimStart_of_skipSpace (by decide) h]
  rfl

/-! ### JSON first, then YAML -/

/-- The text is the description in JSON, or else in YAML. -/
inductive FirstRead (s : String) (api : Api) : Prop
  | json (h : ofJson s = .ok api)
  | yaml {e : ReadError} (hjson : ofJson s = .error e) (h : ofYaml s = .ok api)

/-- The text is a description in the one format that its first character speaks against. -/
inductive Unasked (s : String) : Prop
  | braces {e : ReadError} {api : Api} (hs : startsObject s = true) (hjson : ofJson s = .error e)
      (h : ofYaml s = .ok api)
  | brackets {tail : List Char} {api : Api} (hs : Json.skipSpace s.toList = '[' :: tail)
      (h : ofJson s = .ok api)

theorem ofText_of_startsObject (h : startsObject s = true) : ofText s = ofJson s := if_pos h

theorem ofText_of_not_startsObject (h : startsObject s = false) : ofText s = ofYaml s :=
  if_neg (by simp [h])

/-- JSON that does not begin with a brace is no description in YAML. -/
theorem unasked_of_ofJson (hs : startsObject s = false) (h : ofJson s = .ok api) :
    Unasked s := by
  obtain ⟨tail, hbrace | hbracket⟩ := skipSpace_of_ofJson h
  · rw [startsObject_of_brace hbrace] at hs
    cases hs
  · exact .brackets hbracket h

/-- Nothing is read of a text in the wrong format. -/
theorem exists_error_of_unasked (h : Unasked s) : ∃ e, ofText s = .error e := by
  cases h with
  | @braces e _ hs hjson =>
      exact ⟨e, (ofText_of_startsObject hs).trans hjson⟩
  | brackets hs =>
      refine ⟨.yaml, (ofText_of_not_startsObject (startsObject_of_bracket hs)).trans ?_⟩
      exact ofYaml_of_bracket (Yaml.beforeBracket_of_skipSpace hs)

/-- What is read of a text is its description in JSON, or else in YAML; of a text that its first
character sends to the wrong reader nothing is read. -/
theorem ofText_eq_ok_iff : ofText s = .ok api ↔ FirstRead s api ∧ ¬ Unasked s := by
  constructor
  · intro h
    have hasked : ¬ Unasked s := by
      intro hunasked
      obtain ⟨e, he⟩ := exists_error_of_unasked hunasked
      cases he.symm.trans h
    refine ⟨?_, hasked⟩
    cases hs : startsObject s with
    | true => exact .json ((ofText_of_startsObject hs).symm.trans h)
    | false =>
        rw [ofText_of_not_startsObject hs] at h
        cases hjson : ofJson s with
        | ok other => exact absurd (unasked_of_ofJson hs hjson) hasked
        | error e => exact .yaml hjson h
  · rintro ⟨hread, hasked⟩
    cases hs : startsObject s with
    | true =>
        rw [ofText_of_startsObject hs]
        cases hread with
        | json h => exact h
        | yaml hjson h => exact absurd (.braces hs hjson h) hasked
    | false =>
        rw [ofText_of_not_startsObject hs]
        cases hread with
        | json h => exact absurd (unasked_of_ofJson hs h) hasked
        | yaml _ h => exact h

/-- A description in flow style, which begins with a brace. -/
def flowStyle : String := "\x7bopenapi: 3.0.0, info: \x7btitle: Pets, version: 1\x7d\x7d"

/-- The description in flow style is one in YAML alone, and is not read. -/
theorem flowStyle_unread : ∃ api, FirstRead flowStyle api ∧ ofText flowStyle = .error .json := by
  have hyaml : (ofYaml flowStyle).toOption.isSome = true := by decide +kernel
  have hnone : (Reading.json? Reading.api flowStyle).isNone = true := by decide +kernel
  have hjson : ofJson flowStyle = .error .json := by
    unfold ofJson
    rw [Option.isNone_iff_eq_none.mp hnone]
  have hs : startsObject flowStyle = true := by decide +kernel
  cases h : ofYaml flowStyle with
  | error e => rw [h] at hyaml; cases hyaml
  | ok api => exact ⟨api, .yaml hjson h, (ofText_of_startsObject hs).trans hjson⟩

end Api

end ApiTypes
