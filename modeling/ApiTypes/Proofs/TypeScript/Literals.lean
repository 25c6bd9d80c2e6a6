import ApiTypes.Json.Reader
import ApiTypes.Text.Blank
import ApiTypes.TypeScript.Type
import Mathlib.Data.List.Basic

/-! # Reading string literals

A literal between single quotes is read as the language reads it: a backslash starts an escape, a
line break stands only behind one, and the value is a list of code units.  Literals are written with
only their quotes escaped, so a text without backslashes and line breaks is read back
(`readFrom_escaped`), and no other text is (`isPlain_of_readFrom`): each escape that is read makes
the value shorter than what is written (`Scan.Run.weight`), and what is written is longer than the
text only by its quotes.

Main definitions: `units`, `Scan`, `readFrom`, `readLiteral`, `IsPlain`. -/

namespace ApiTypes

namespace TypeScript

/-! ### Code units -/

/-- The code units of a code point: beyond 0xFFFF the two halves of a surrogate pair. -/
def pointUnits (n : Nat) : List Nat :=
  if n < 0x10000 then [n]
  else [0xD800 + (n - 0x10000) / 0x400, 0xDC00 + (n - 0x10000) % 0x400]

/-- The code units of a text. -/
def units (s : List Char) : List Nat := s.flatMap fun c => pointUnits c.toNat

/-! ### The reader -/

/-- How far a literal is read: where the next character stands. -/
inductive Scan where
  | plain
  /-- Behind the backslash of an escape. -/
  | escape
  /-- Behind an escaped zero, which no digit may follow. -/
  | zero
  /-- Behind an escaped carriage return, to which a line feed may belong. -/
  | carriage
  /-- Before the last digits of an escape, with the value of the digits so far. -/
  | digits (left value : Nat)
  /-- Behind the letter of an escape by code point. -/
  | point
  /-- Between the braces of such an escape, with the value of the digits so far. -/
  | braces (value : Option Nat)
  deriving DecidableEq, Repr

namespace Scan

/-- May the literal end here? -/
def isFinal : Scan → Bool
  | plain | zero | carriage => true
  | escape | digits .. | point | braces _ => false

/-- The code units of an escaped character that is no digit and starts no longer escape. -/
def escapedUnits (c : Char) : List Nat :=
  if c = 'b' then [0x08]
  else if c = 't' then [0x09]
  else if c = 'n' then [0x0A]
  else if c = 'v' then [0x0B]
  else if c = 'f' then [0x0C]
  else if c = 'r' then [0x0D]
  else pointUnits c.toNat

/-- A character outside escapes. -/
def stepPlain (c : Char) : Option (List Nat × Scan) :=
  if c = '\\' then some ([], .escape)
  else if c = '\'' ∨ c = '\n' ∨ c = '\r' then none
  else some (pointUnits c.toNat, .plain)

/-- The character behind a backslash. -/
def stepEscape (c : Char) : Option (List Nat × Scan) :=
  if c = 'x' then some ([], .digits 2 0)
  else if c = 'u' then some ([], .point)
  else if c = '0' then some ([0], .zero)
  else if c.isDigit then none
  else if c = '\r' then some ([], .carriage)
  else if c = '\n' ∨ c = '\u2028' ∨ c = '\u2029' then some ([], .plain)
  else some (escapedUnits c, .plain)

/-- A digit of base sixteen, of which `left` are to come. -/
def stepDigit (left value : Nat) (c : Char) : Option (List Nat × Scan) :=
  (Json.hexValue? c).map fun d =>
    if left ≤ 1 then ([16 * value + d], .plain) else ([], .digits (left - 1) (16 * value + d))

/-- A character between braces. -/
def stepBraces (value : Option Nat) (c : Char) : Option (List Nat × Scan) :=
  if c = '}' then value.map fun n => (pointUnits n, .plain)
  else ((Json.hexValue? c).map (16 * value.getD 0 + ·)).bind fun n =>
    if n ≤ 0x10FFFF then some ([], .braces (some n)) else none

/-- The code units that a character adds, and how far the literal is read then. -/
def step : Scan → Char → Option (List Nat × Scan)
  | plain, c => stepPlain c
  | escape, c => stepEscape c
  | zero, c => if c.isDigit then none else stepPlain c
  | carriage, c => if c = '\n' then some ([], .plain) else stepPlain c
  | digits left value, c => stepDigit left value c
  | point, c => if c = '{' then some ([], .braces none) else stepDigit 4 0 c
  | braces value, c => stepBraces value c

/-- A stretch of a literal adds the code units, and the literal is read so far behind it. -/
inductive Run : Scan → List Char → List Nat → Scan → Prop
  | nil (σ : Scan) : Run σ [] [] σ
  | cons {σ τ ρ : Scan} {c : Char} {rest : List Char} {u v : List Nat} :
    σ.step c = some (u, τ) → Run τ rest v ρ → Run σ (c :: rest) (u ++ v) ρ

end Scan

/-- The code units up to the quote that ends a literal, and what follows it. -/
def readFrom : Scan → List Char → Option (List Nat × List Char)
  | _, [] => none
  | σ, c :: rest =>
    if c = '\'' ∧ σ.isFinal = true then some ([], rest)
    else (σ.step c).bind fun p => (readFrom p.2 rest).map fun q => (p.1 ++ q.1, q.2)

/-- The value of the literal in front, and what follows it. -/
def readLiteral : List Char → Option (List Nat × List Char)
  | '\'' :: rest => readFrom .plain rest
  | _ => none

/-! ### Stretches -/

theorem Scan.step_quote {σ : Scan} (h : σ.isFinal = true) : σ.step '\'' = none := by
  cases σ <;> first | rfl | exact absurd h (by decide)

theorem Scan.Run.split {s t : List Char} {v : List Nat} {ρ : Scan} : ∀ {σ : Scan},
    Run σ (s ++ t) v ρ → ∃ τ v₁ v₂, Run σ s v₁ τ ∧ Run τ t v₂ ρ ∧ v = v₁ ++ v₂ := by
  induction s generalizing v with
  | nil => exact fun {σ} h => ⟨σ, [], v, .nil σ, h, rfl⟩
  | cons c s ih =>
      intro σ h
      cases h with
      | cons hstep hrest =>
        obtain ⟨τ, v₁, v₂, h₁, h₂, rfl⟩ := ih hrest
        exact ⟨τ, _, v₂, .cons hstep h₁, h₂, (List.append_assoc ..).symm⟩

/-- The reader stops in front of the first quote that no escape takes. -/
theorem readFrom_eq_some_iff {s rest : List Char} {v : List Nat} : ∀ {σ : Scan},
    readFrom σ s = some (v, rest) ↔
      ∃ body τ, s = body ++ '\'' :: rest ∧ Scan.Run σ body v τ ∧ τ.isFinal = true := by
  induction s generalizing v with
  | nil =>
      intro σ
      simp [readFrom]
  | cons c s ih =>
      intro σ
      rw [readFrom]
      constructor
      · intro h
        split at h
        · next hc =>
          obtain ⟨rfl, hσ⟩ := hc
          cases h
          exact ⟨[], σ, rfl, .nil σ, hσ⟩
        · obtain ⟨⟨u, τ⟩, hstep, h⟩ := Option.bind_eq_some_iff.mp h
          obtain ⟨⟨v', r⟩, hrest, h⟩ := Option.map_eq_some_iff.mp h
          cases h
          obtain ⟨body, ρ, rfl, hrun, hρ⟩ := ih.mp hrest
          exact ⟨c :: body, ρ, rfl, .cons hstep hrun, hρ⟩
      · rintro ⟨body, ρ, hs, hrun, hρ⟩
        cases hrun with
        | nil =>
          cases hs
          rw [if_pos ⟨rfl, hρ⟩]
        | @cons _ τ _ d body u w hstep hrest =>
          cases hs
          have hopen : ¬ (c = '\'' ∧ σ.isFinal = true) := by
            rintro ⟨rfl, hσ⟩
            rw [Scan.step_quote hσ] at hstep
            exact absurd hstep (by simp)
          rw [if_neg hopen, hstep, Option.bind_some, ih.mpr ⟨body, ρ, rfl, hrest, hρ⟩]
          rfl

/-! ### What escapes cost -/

/-- How many code units of a value are a quote or a backslash. -/
def specials (v : List Nat) : Nat := v.countP fun u => u == 0x27 || u == 0x5C

theorem specials_append (v w : List Nat) : specials (v ++ w) = specials v + specials w :=
  List.countP_append

/-- A code point is one code unit, or two that are neither quote nor backslash. -/
theorem pointUnits_cases (n : Nat) : pointUnits n = [n] ∨
    ∃ high low, pointUnits n = [high, low] ∧ specials [high, low] = 0 ∧ n ≠ 0x27 ∧ n ≠ 0x5C := by
  unfold pointUnits
  split
  · exact .inl rfl
  · refine .inr ⟨_, _, rfl, ?_, by omega, by omega⟩
    unfold specials
    rw [List.countP_cons_of_neg (by simp; omega), List.countP_cons_of_neg (by simp; omega)]
    rfl

theorem length_pointUnits_pos (n : Nat) : 0 < (pointUnits n).length := by
  rcases pointUnits_cases n with h | ⟨_, _, h, _⟩ <;> simp [h]

theorem specials_pointUnits (n : Nat) :
    specials (pointUnits n) = if n = 0x27 ∨ n = 0x5C then 1 else 0 := by
  rcases pointUnits_cases n with h | ⟨_, _, h, hpair, hquote, hslash⟩
  · rw [h]
    simp [specials, List.countP_cons]
  · rw [h, hpair, if_neg (by simp [hquote, hslash])]

theorem length_add_specials_pointUnits_le (n : Nat) :
    (pointUnits n).length + specials (pointUnits n) ≤ 2 := by
  rcases pointUnits_cases n with h | ⟨_, _, h, hpair, _, _⟩
  · rw [h]
    exact Nat.add_le_add_left List.countP_le_length 1
  · rw [h, hpair]
    exact Nat.le_refl 2

theorem specials_pointUnits_char (c : Char) :
    specials (pointUnits c.toNat) = if c = '\'' ∨ c = '\\' then 1 else 0 := by
  have hquote : c.toNat = 0x27 ↔ c = '\'' := Char.toNat_inj (d := '\'')
  have hslash : c.toNat = 0x5C ↔ c = '\\' := Char.toNat_inj (d := '\\')
  rw [specials_pointUnits]
  simp only [hquote, hslash]

namespace Scan

/-- One where a backslash is read but not all that it escapes. -/
def debt (σ : Scan) : Nat := if σ.isFinal then 0 else 1

theorem debt_of_isFinal {σ : Scan} (h : σ.isFinal = true) : σ.debt = 0 := if_pos h

theorem debt_le (σ : Scan) : σ.debt ≤ 1 := by
  unfold debt
  split <;> omega

theorem stepPlain_weight {c : Char} {u : List Nat} {τ : Scan} (h : stepPlain c = some (u, τ)) :
    u.length + specials u + τ.debt ≤ (pointUnits c.toNat).length := by
  unfold stepPlain at h
  split at h
  · cases h
    exact length_pointUnits_pos _
  · next hslash =>
    split at h
    · cases h
    · next hquote =>
      cases h
      rw [specials_pointUnits_char, if_neg (by tauto)]
      exact Nat.le_refl _

theorem escapedUnits_weight (c : Char) :
    (escapedUnits c).length + specials (escapedUnits c) ≤ (pointUnits c.toNat).length + 1 := by
  have hpos := length_pointUnits_pos c.toNat
  unfold escapedUnits
  split_ifs
  case neg =>
    rw [specials_pointUnits]
    split <;> omega
  all_goals exact Nat.le_add_right_of_le hpos

theorem stepEscape_weight {c : Char} {u : List Nat} {τ : Scan} (h : stepEscape c = some (u, τ)) :
    u.length + specials u + τ.debt ≤ (pointUnits c.toNat).length + 1 := by
  have hpos := length_pointUnits_pos c.toNat
  have hempty : ∀ τ : Scan, ([] : List Nat).length + specials [] + τ.debt ≤
      (pointUnits c.toNat).length + 1 := by
    intro τ
    have := τ.debt_le
    simp [specials]
    omega
  unfold stepEscape at h
  split_ifs at h <;> cases h
  all_goals first | exact hempty _ | exact escapedUnits_weight c | exact Nat.le_add_right_of_le hpos

theorem stepDigit_weight {left value : Nat} {c : Char} {u : List Nat} {τ : Scan}
    (h : stepDigit left value c = some (u, τ)) :
    u.length + specials u + τ.debt ≤ (pointUnits c.toNat).length + 1 := by
  have hpos := length_pointUnits_pos c.toNat
  unfold stepDigit at h
  obtain ⟨d, _, h⟩ := Option.map_eq_some_iff.mp h
  split at h <;> cases h
  · have : specials [16 * value + d] ≤ 1 := List.countP_le_length
    change 1 + specials [16 * value + d] + 0 ≤ _
    omega
  · change 0 + 0 + 1 ≤ _
    omega

theorem stepBraces_weight {value : Option Nat} {c : Char} {u : List Nat} {τ : Scan}
    (h : stepBraces value c = some (u, τ)) :
    u.length + specials u + τ.debt ≤ (pointUnits c.toNat).length + 1 := by
  have hpos := length_pointUnits_pos c.toNat
  unfold stepBraces at h
  split at h
  · obtain ⟨n, _, h⟩ := Option.map_eq_some_iff.mp h
    cases h
    have := length_add_specials_pointUnits_le n
    change (pointUnits n).length + specials (pointUnits n) + 0 ≤ _
    omega
  · obtain ⟨n, _, h⟩ := Option.bind_eq_some_iff.mp h
    split at h <;> cases h
    change 0 + 0 + 1 ≤ _
    omega

/-- A character adds no more code units than it has, and each quote or backslash among them costs
one more, which an escape pays for. -/
theorem step_weight {σ τ : Scan} {c : Char} {u : List Nat} (h : σ.step c = some (u, τ)) :
    u.length + specials u + τ.debt ≤ (pointUnits c.toNat).length + σ.debt := by
  cases σ with
  | plain => exact stepPlain_weight h
  | escape => exact stepEscape_weight h
  | zero =>
      simp only [step] at h
      split at h
      · cases h
      · exact stepPlain_weight h
  | carriage =>
      simp only [step] at h
      split at h
      · cases h
        exact Nat.zero_le _
      · exact stepPlain_weight h
  | digits left value => exact stepDigit_weight h
  | point =>
      simp only [step] at h
      split at h
      · cases h
        exact Nat.succ_le_succ (Nat.zero_le _)
      · exact stepDigit_weight h
  | braces value => exact stepBraces_weight h

theorem Run.weight {σ τ : Scan} {s : List Char} {v : List Nat} (h : Run σ s v τ) :
    v.length + specials v + τ.debt ≤ (units s).length + σ.debt := by
  induction h with
  | nil σ => exact Nat.le_refl _
  | @cons σ τ ρ c rest u v hstep _ ih =>
      have hfirst := step_weight hstep
      have hunits : (units (c :: rest)).length =
          (pointUnits c.toNat).length + (units rest).length := List.length_append
      rw [List.length_append, specials_append, hunits]
      omega

end Scan

/-! ### Escaped texts -/

/-- A text with its quotes escaped, as it stands in a literal. -/
def escaped (s : List Char) : List Char := Text.replaceChar '\'' ['\\', '\''] s

theorem escaped_cons (c : Char) (s : List Char) :
    escaped (c :: s) = (if c = '\'' then ['\\', '\''] else [c]) ++ escaped s := rfl

theorem units_append (s t : List Char) : units (s ++ t) = units s ++ units t := List.flatMap_append

theorem units_cons (c : Char) (s : List Char) :
    units (c :: s) = pointUnits c.toNat ++ units s := rfl

/-- An escaped text is longer by its quotes, and these are the quotes of its value: only backslashes
are left to be paid for. -/
theorem length_units_escaped (s : List Char) :
    (units (escaped s)).length + s.count '\\' = (units s).length + specials (units s) := by
  induction s with
  | nil => rfl
  | cons c s ih =>
      rw [escaped_cons, units_append, units_cons, List.length_append, List.length_append,
        specials_append, specials_pointUnits_char, List.count_cons]
      by_cases hquote : c = '\''
      · subst hquote
        have hfirst : (units ['\\', '\'']).length = (pointUnits '\''.toNat).length + 1 := rfl
        rw [if_pos rfl, if_neg (by decide), if_pos (.inl rfl), hfirst]
        omega
      · have hfirst : (units [c]).length = (pointUnits c.toNat).length := by simp [units]
        have hspecial : (c == '\\') = true ↔ c = '\'' ∨ c = '\\' := by simp [hquote]
        rw [if_neg hquote, hfirst]
        simp only [hspecial]
        omega

/-- Has the text neither backslashes nor line breaks? -/
def IsPlain (s : List Char) : Prop := ∀ c ∈ s, c ≠ '\\' ∧ c ≠ '\n' ∧ c ≠ '\r'

/-- Such a text is read from its escaped form as it is. -/
theorem run_escaped {s : List Char} (h : IsPlain s) :
    Scan.Run .plain (escaped s) (units s) .plain := by
  induction s with
  | nil => exact .nil _
  | cons c s ih =>
      have hrest := ih fun d hd => h d (List.mem_cons_of_mem _ hd)
      obtain ⟨hslash, hfeed, hreturn⟩ := h c List.mem_cons_self
      rw [escaped_cons]
      by_cases hquote : c = '\''
      · subst hquote
        exact .cons (u := []) rfl (.cons (u := [0x27]) rfl hrest)
      · rw [if_neg hquote]
        refine .cons ?_ hrest
        simp [Scan.step, Scan.stepPlain, hslash, hfeed, hreturn, hquote]

theorem readFrom_escaped {s : List Char} (h : IsPlain s) (rest : List Char) :
    readFrom .plain (escaped s ++ '\'' :: rest) = some (units s, rest) :=
  readFrom_eq_some_iff.mpr ⟨escaped s, .plain, rfl, run_escaped h, rfl⟩

/-! ### What is read as it was written -/

theorem escaped_append (s t : List Char) : escaped (s ++ t) = escaped s ++ escaped t := by
  induction s with
  | nil => rfl
  | cons c s ih => rw [List.cons_append, escaped_cons, ih, escaped_cons, List.append_assoc]

/-- Only an escape takes a quote. -/
theorem Scan.step_quote_cases {σ τ : Scan} {u : List Nat} (h : σ.step '\'' = some (u, τ)) :
    σ = .escape ∧ τ = .plain := by
  cases σ with
  | escape =>
      cases h
      exact ⟨rfl, rfl⟩
  | digits left value => exact absurd h (by simp [step, stepDigit, Json.hexValue?])
  | point => exact absurd h (by simp [step, stepDigit, Json.hexValue?])
  | braces value => exact absurd h (by simp [step, stepBraces, Json.hexValue?])
  | plain | zero | carriage => cases h

/-- Only a backslash starts an escape. -/
theorem Scan.eq_backslash_of_step {σ : Scan} {c : Char} {u : List Nat}
    (h : σ.step c = some (u, .escape)) : c = '\\' := by
  have hplain : stepPlain c = some (u, .escape) → c = '\\' := by
    intro h
    unfold stepPlain at h
    split_ifs at h with hslash
    · exact hslash
    · cases h
  have hdigit : ∀ left value, stepDigit left value c ≠ some (u, .escape) := by
    intro left value h
    obtain ⟨d, _, h⟩ := Option.map_eq_some_iff.mp h
    split at h <;> cases h
  cases σ with
  | plain => exact hplain h
  | escape =>
      simp only [step, stepEscape] at h
      split_ifs at h <;> cases h
  | zero =>
      simp only [step] at h
      split_ifs at h
      exact hplain h
  | carriage =>
      simp only [step] at h
      split_ifs at h
      · cases h
      · exact hplain h
  | digits left value => exact absurd h (hdigit left value)
  | point =>
      simp only [step] at h
      split_ifs at h
      · cases h
      · exact absurd h (hdigit 4 0)
  | braces value =>
      simp only [step, stepBraces] at h
      split_ifs at h
      · obtain ⟨n, _, h⟩ := Option.map_eq_some_iff.mp h
        cases h
      · obtain ⟨n, _, h⟩ := Option.bind_eq_some_iff.mp h
        split_ifs at h
        cases h

theorem Scan.Run.getLast?_of_escape {σ ρ : Scan} {s : List Char} {v : List Nat}
    (h : Run σ s v ρ) (hρ : ρ = .escape) (hs : s ≠ []) : s.getLast? = some '\\' := by
  induction h with
  | nil => exact absurd rfl hs
  | @cons σ τ ρ c rest u v hstep hrest ih =>
      subst hρ
      cases hrest with
      | nil => rw [eq_backslash_of_step hstep, List.getLast?_singleton]
      | cons hnext hrest =>
        rw [List.getLast?_cons_cons]
        exact ih rfl (List.cons_ne_nil _ _)

theorem isPlain_of_run {s : List Char} {v : List Nat} {τ : Scan} (hslash : '\\' ∉ s)
    (h : Scan.Run .plain (escaped s) v τ) : IsPlain s := by
  induction s generalizing v with
  | nil => exact fun c hc => absurd hc List.not_mem_nil
  | cons c s ih =>
      rw [List.mem_cons, not_or] at hslash
      rw [escaped_cons] at h
      have hrest : (c ≠ '\n' ∧ c ≠ '\r') ∧ ∃ w, Scan.Run .plain (escaped s) w τ := by
        by_cases hquote : c = '\''
        · subst hquote
          rw [if_pos rfl] at h
          obtain - | ⟨hstep, hnext⟩ := h
          cases hstep
          obtain - | ⟨hstep, hrest⟩ := hnext
          cases hstep
          exact ⟨by decide, _, hrest⟩
        · rw [if_neg hquote] at h
          obtain - | ⟨hstep, hrest⟩ := h
          simp only [Scan.step, Scan.stepPlain] at hstep
          split_ifs at hstep with h1 h2
          · exact absurd h1.symm hslash.1
          · cases hstep
            exact ⟨by tauto, _, hrest⟩
      obtain ⟨hbreak, w, hrest⟩ := hrest
      intro d hd
      rcases List.mem_cons.mp hd with rfl | hd
      · exact ⟨fun h => hslash.1 h.symm, hbreak⟩
      · exact ih hslash.2 hrest d hd

theorem getLast?_escaped {s : List Char} (h : (escaped s).getLast? = some '\\') :
    s.getLast? = some '\\' := by
  rcases List.eq_nil_or_concat s with rfl | ⟨p, c, rfl⟩
  · exact h
  · rw [List.concat_eq_append] at h ⊢
    rw [escaped_append, escaped_cons] at h
    split at h
    · simp [escaped, Text.replaceChar] at h
    · simpa [escaped, Text.replaceChar] using h

theorem getLast?_units {s : List Char} (h : s.getLast? = some '\\') :
    (units s).getLast? = some 0x5C := by
  obtain ⟨p, rfl⟩ := List.getLast?_eq_some_iff.mp h
  rw [units_append]
  exact List.getLast?_concat ..

/-- A literal is read past its last quote only where a backslash takes the quote, and then its value
ends in what comes after, and not in that backslash. -/
theorem not_run_past {s w : List Char} {τ : Scan}
    (hw : ∀ v, Scan.Run .plain w v τ → v.getLast? = some 0x20) :
    ¬ Scan.Run .plain (escaped s ++ '\'' :: w) (units s) τ := by
  intro h
  obtain ⟨σ, v₁, v₂, hs, hquote, hv⟩ := h.split
  obtain - | ⟨hstep, hrest⟩ := hquote
  obtain ⟨rfl, rfl⟩ := Scan.step_quote_cases hstep
  -- The written text ends in the backslash of that escape, and so does the text.
  have hne : escaped s ≠ [] := by
    intro h
    rw [h] at hs
    cases hs
  have hlast := getLast?_units (getLast?_escaped (hs.getLast?_of_escape rfl hne))
  have hspace := hw _ hrest
  rw [hv, List.getLast?_append, List.getLast?_append, hspace] at hlast
  simp at hlast

/-- A text that is read as it was written has no backslashes and no line breaks. -/
theorem isPlain_of_readFrom {s tail rest : List Char}
    (htail : ∀ v r, readFrom .plain tail = some (v, r) → v.getLast? = some 0x20)
    (h : readFrom .plain (escaped s ++ '\'' :: tail) = some (units s, rest)) : IsPlain s := by
  obtain ⟨body, τ, hs, hrun, hτ⟩ := readFrom_eq_some_iff.mp h
  have hweight := hrun.weight
  rw [Scan.debt_of_isFinal hτ, Scan.debt_of_isFinal rfl] at hweight
  have hescaped := length_units_escaped s
  -- The reader stops at the quote that was written: what is read further than that ends otherwise,
  -- and what is read less far is too short.
  have hbody : escaped s = body := by
    rcases List.append_eq_append_iff.mp hs with ⟨w, rfl, hw⟩ | ⟨w, hw, _⟩
    · cases w with
      | nil => exact (List.append_nil _).symm
      | cons c w =>
          cases hw
          refine absurd hrun (not_run_past fun v hv => ?_)
          exact htail v rest (readFrom_eq_some_iff.mpr ⟨w, τ, rfl, hv, hτ⟩)
    · cases w with
      | nil => rw [hw, List.append_nil]
      | cons c w =>
          have hpos := length_pointUnits_pos c.toNat
          rw [hw, units_append, units_cons, List.length_append, List.length_append] at hescaped
          omega
  subst hbody
  -- Now both weights are of one text, and they leave no room for a backslash.
  have hslash : s.count '\\' = 0 := by omega
  exact isPlain_of_run (List.count_eq_zero.mp hslash) hrun

end TypeScript

end ApiTypes
