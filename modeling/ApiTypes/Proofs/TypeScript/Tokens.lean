import ApiTypes.Proofs.TypeScript.Literals

/-! # Tokens

Types are written as literals and words with signs between them.  A quote behind a backslash stands
in a literal or ends it, so where a literal ends cannot be told from what is next to its quote.
There is only one way to cut the whole text all the same (`spell_inj`): no backslash stands outside
literals, so who takes the end of one for a quote inside it takes the beginning of the next for its
end, and so on up to the end of the text, where a literal is left open (`spell_ne_behind`).

Main definitions: `Token`, `spell`, `isWordChar`, `isSign`, `Separated`. -/

namespace ApiTypes

namespace TypeScript

/-- A piece of the text of a type. -/
inductive Token where
  | sign (c : Char)
  | word (w : List Char)
  | text (s : List Char)
  deriving DecidableEq, Repr

/-- The characters of a token: texts are between single quotes. -/
def Token.chars : Token → List Char
  | .sign c => [c]
  | .word w => w
  | .text s => singleQuoted s

/-- The characters of tokens. -/
def spell (ts : List Token) : List Char := ts.flatMap Token.chars

theorem spell_append (ts us : List Token) : spell (ts ++ us) = spell ts ++ spell us :=
  List.flatMap_append

theorem spell_sign (c : Char) (ts : List Token) : spell (.sign c :: ts) = c :: spell ts := rfl

theorem spell_word (w : List Char) (ts : List Token) : spell (.word w :: ts) = w ++ spell ts := rfl

theorem spell_text (s : List Char) (ts : List Token) :
    spell (.text s :: ts) = '\'' :: (escaped s ++ '\'' :: spell ts) := by
  change '\'' :: (escaped s ++ ['\'']) ++ spell ts = _
  rw [List.cons_append, List.append_assoc, List.singleton_append]

/-! ### Tokens that stand apart -/

/-- May the character stand in a word? -/
def isWordChar (c : Char) : Bool := c.isAlphanum || c == '$' || c == '-'

theorem ne_of_isWordChar {c : Char} (h : isWordChar c = true) : c ≠ '\'' ∧ c ≠ '\\' := by
  constructor <;> rintro rfl <;> exact absurd h (by decide)

/-- May the character stand for itself outside words? -/
def isSign (c : Char) : Bool := !isWordChar c && c != '\'' && c != '\\'

theorem isSign_iff {c : Char} : isSign c = true ↔ isWordChar c = false ∧ c ≠ '\'' ∧ c ≠ '\\' := by
  simp [isSign, and_assoc]

/-- The tokens can be told apart: signs are signs, and words are made of their characters and end
where no such character follows. -/
inductive Separated : List Token → Prop
  | nil : Separated []
  | sign {c : Char} {ts : List Token} : isSign c = true → Separated ts →
      Separated (.sign c :: ts)
  | word {w : List Char} {ts : List Token} : w ≠ [] → (∀ c ∈ w, isWordChar c = true) →
      (∀ c ∈ (spell ts).head?, isWordChar c = false) → Separated ts → Separated (.word w :: ts)
  | text {s : List Char} {ts : List Token} : Separated ts → Separated (.text s :: ts)

/-- What the first character of a token tells. -/
inductive TokenKind where
  | sign
  | word
  | text

/-- The kind of a token. -/
def Token.kind : Token → TokenKind
  | .sign _ => .sign
  | .word _ => .word
  | .text _ => .text

/-- The kind of tokens that begin with the character. -/
def kindOf (c : Char) : TokenKind :=
  if c = '\'' then .text else if isWordChar c then .word else .sign

/-- The text has no quote, or a first one, which opens a literal with fewer than `n` tokens behind
it, and no backslash in front of it. -/
def OpensFirst (s : List Char) (n : Nat) : Prop := '\'' ∉ s ∨
  ∃ p t us, s = p ++ '\'' :: (escaped t ++ '\'' :: spell us) ∧ '\'' ∉ p ∧ '\\' ∉ p ∧
    Separated us ∧ us.length < n

theorem OpensFirst.prepend {s : List Char} {n : Nat} (h : OpensFirst s n) (w : List Char)
    (hquote : '\'' ∉ w) (hslash : '\\' ∉ w) : OpensFirst (w ++ s) (n + 1) := by
  rcases h with hnone | ⟨p, t, us, rfl, hpq, hps, hus, hlt⟩
  · exact .inl (List.not_mem_append hquote hnone)
  · exact .inr ⟨w ++ p, t, us, (List.append_assoc ..).symm, List.not_mem_append hquote hpq,
      List.not_mem_append hslash hps, hus, Nat.lt_succ_of_lt hlt⟩

namespace Separated

variable {ts us : List Token}

/-- Tokens around a sign stand apart. -/
theorem append_sign (ht : Separated ts) {c : Char} (hc : isSign c = true) (hu : Separated us) :
    Separated (ts ++ .sign c :: us) := by
  induction ht with
  | nil => exact .sign hc hu
  | sign hd _ ih => exact .sign hd ih
  | @word w ts hne hw hend _ ih =>
      refine .word hne hw (fun d hd => ?_) ih
      change d ∈ (spell (ts ++ .sign c :: us)).head? at hd
      rw [spell_append, spell_sign, List.head?_append] at hd
      cases hhead : (spell ts).head? with
      | none =>
          rw [hhead] at hd
          cases hd
          exact (isSign_iff.mp hc).1
      | some e =>
          rw [hhead] at hd
          cases hd
          exact hend d hhead
  | text _ ih => exact .text ih

theorem kind_head {t : Token} (h : Separated (t :: ts)) :
    (spell (t :: ts)).head?.map kindOf = some t.kind := by
  cases h with
  | @sign c _ hc _ =>
      obtain ⟨hword, hquote, _⟩ := isSign_iff.mp hc
      rw [spell_sign]
      simp [kindOf, hquote, hword, Token.kind]
  | @word w _ hne hw _ _ =>
      obtain ⟨c, w, rfl⟩ := List.exists_cons_of_ne_nil hne
      have hc := hw c List.mem_cons_self
      rw [spell_word]
      simp [kindOf, (ne_of_isWordChar hc).1, hc, Token.kind]
  | text _ => rfl

theorem opensFirst (h : Separated ts) : OpensFirst (spell ts) ts.length := by
  induction h with
  | nil => exact .inl List.not_mem_nil
  | @sign c _ hc _ ih =>
      obtain ⟨_, hquote, hslash⟩ := isSign_iff.mp hc
      exact ih.prepend [c] (List.mem_singleton.not.mpr hquote.symm)
        (List.mem_singleton.not.mpr hslash.symm)
  | @word w _ _ hw _ _ ih =>
      exact ih.prepend w (fun hmem => (ne_of_isWordChar (hw _ hmem)).1 rfl)
        (fun hmem => (ne_of_isWordChar (hw _ hmem)).2 rfl)
  | @text s ts hts _ =>
      exact .inr ⟨[], s, ts, spell_text s ts, List.not_mem_nil, List.not_mem_nil, hts,
        Nat.lt_succ_self _⟩

end Separated

/-! ### Where a stretch of characters ends -/

/-- A stretch of one sort of characters ends at the first of another sort. -/
theorem stretch_append_inj {p : Char → Bool} {w v x y : List Char} (hw : ∀ c ∈ w, p c = true)
    (hv : ∀ c ∈ v, p c = true) (hx : ∀ c ∈ x.head?, p c = false)
    (hy : ∀ c ∈ y.head?, p c = false) (h : w ++ x = v ++ y) : w = v ∧ x = y := by
  have hspan : ∀ {w x : List Char}, (∀ c ∈ w, p c = true) → (∀ c ∈ x.head?, p c = false) →
      (w ++ x).takeWhile p = w := by
    intro w x hw hx
    rw [List.takeWhile_append_of_pos hw]
    cases x with
    | nil => exact List.append_nil w
    | cons c x =>
        rw [List.takeWhile_cons_of_neg (by rw [hx c rfl]; exact Bool.false_ne_true),
          List.append_nil]
  obtain rfl : w = v := by rw [← hspan hw hx, h, hspan hv hy]
  exact ⟨rfl, List.append_cancel_left h⟩

/-- A text has one first quote. -/
theorem append_quote_inj {s t u v : List Char} (hs : '\'' ∉ s) (ht : '\'' ∉ t)
    (h : s ++ '\'' :: u = t ++ '\'' :: v) : s = t ∧ u = v := by
  have hplain : ∀ {s : List Char}, '\'' ∉ s → ∀ c ∈ s, (c != '\'') = true := by
    intro s hs c hc
    exact bne_iff_ne.mpr fun heq => hs (heq ▸ hc)
  have hquote : ∀ {u : List Char}, ∀ c ∈ ('\'' :: u).head?, (c != '\'') = false := by
    intro u c hc
    cases hc
    rfl
  obtain ⟨heq, htail⟩ := stretch_append_inj (hplain hs) (hplain ht) hquote hquote h
  exact ⟨heq, (List.cons.inj htail).2⟩

/-! ### Escaped texts in front of a quote -/

/-- The first quote of an escaped text stands behind a backslash. -/
theorem exists_of_quote_mem_escaped {s : List Char} (h : '\'' ∈ escaped s) :
    ∃ a b, escaped s = a ++ ['\\'] ++ '\'' :: b ∧ '\'' ∉ a ++ ['\\'] := by
  induction s with
  | nil => cases h
  | cons c s ih =>
      rw [escaped_cons] at h ⊢
      by_cases hc : c = '\''
      · exact ⟨[], escaped s, by rw [if_pos hc]; rfl, by decide⟩
      · rw [if_neg hc, List.singleton_append] at h ⊢
        obtain ⟨a, b, hab, ha⟩ := ih (List.mem_of_ne_of_mem (Ne.symm hc) h)
        exact ⟨c :: a, b, by rw [hab]; rfl, List.not_mem_cons_of_ne_of_not_mem (Ne.symm hc) ha⟩

/-- An escaped text does not begin with a quote. -/
theorem eq_nil_of_escaped_quote {s u v : List Char} (h : escaped s ++ '\'' :: u = '\'' :: v) :
    s = [] ∧ u = v := by
  cases s with
  | nil => exact ⟨rfl, (List.cons.inj h).2⟩
  | cons c s =>
      rw [escaped_cons] at h
      split at h
      · cases h
      · next hc => exact absurd (List.cons.inj h).1 hc

/-! ### One way to cut -/

/-- Tokens that are one literal behind others never catch up with them. -/
theorem spell_ne_behind {ts us : List Token} (ht : Separated ts) (hu : Separated us)
    (s : List Char) : spell ts ≠ escaped s ++ '\'' :: spell us := by
  intro h
  rcases ht.opensFirst with hnone | ⟨p, t, rest, hspell, hpq, hps, hrest, hlt⟩
  · exact hnone (h ▸ List.mem_append_right _ List.mem_cons_self)
  · rw [hspell] at h
    -- The first quote opens a literal on the one side and ends one on the other.
    have hs : '\'' ∉ escaped s := by
      intro hquote
      obtain ⟨a, b, hab, ha⟩ := exists_of_quote_mem_escaped hquote
      rw [hab, List.append_assoc, List.cons_append] at h
      obtain ⟨rfl, _⟩ := append_quote_inj hpq ha h
      exact hps (List.mem_append_right a List.mem_cons_self)
    obtain ⟨_, htail⟩ := append_quote_inj hpq hs h
    -- Now the other side is one literal behind, and fewer tokens are to come.
    exact spell_ne_behind hu hrest t htail.symm
termination_by ts.length + us.length

/-- A literal is closed at the same place. -/
theorem escaped_append_inj {ts us : List Token} (ht : Separated ts) (hu : Separated us)
    {s t : List Char} (h : escaped s ++ '\'' :: spell ts = escaped t ++ '\'' :: spell us) :
    s = t ∧ spell ts = spell us := by
  induction s generalizing t with
  | nil =>
      obtain ⟨rfl, heq⟩ := eq_nil_of_escaped_quote h.symm
      exact ⟨rfl, heq.symm⟩
  | cons c s ih =>
      cases t with
      | nil => exact absurd (eq_nil_of_escaped_quote h).1 (List.cons_ne_nil c s)
      | cons d t =>
          rw [escaped_cons, escaped_cons, List.append_assoc, List.append_assoc] at h
          by_cases hc : c = '\'' <;> by_cases hd : d = '\''
          · rw [if_pos hc, if_pos hd] at h
            obtain ⟨rfl, heq⟩ := ih (List.append_cancel_left h)
            exact ⟨by rw [hc, hd], heq⟩
          · -- Here the backslash of an escape is one that is written itself.
            rw [if_pos hc, if_neg hd] at h
            obtain ⟨rfl, heq⟩ := eq_nil_of_escaped_quote (List.cons.inj h).2.symm
            exact absurd heq (spell_ne_behind hu ht s)
          · rw [if_neg hc, if_pos hd] at h
            obtain ⟨rfl, heq⟩ := eq_nil_of_escaped_quote (List.cons.inj h).2
            exact absurd heq (spell_ne_behind ht hu t)
          · rw [if_neg hc, if_neg hd] at h
            obtain ⟨rfl, heq⟩ := ih (List.cons.inj h).2
            exact ⟨by rw [(List.cons.inj h).1], heq⟩

/-- The first token is told by the characters of all. -/
theorem token_inj {t u : Token} {ts us : List Token} (ht : Separated (t :: ts))
    (hu : Separated (u :: us)) (h : spell (t :: ts) = spell (u :: us)) :
    t = u ∧ Separated ts ∧ Separated us ∧ spell ts = spell us := by
  have hkind : some t.kind = some u.kind := by rw [← ht.kind_head, h, hu.kind_head]
  cases ht with
  | sign _ hts =>
      cases hu with
      | sign _ hus =>
          obtain ⟨rfl, htail⟩ := List.cons.inj h
          exact ⟨rfl, hts, hus, htail⟩
      | word _ _ _ _ | text _ => cases hkind
  | word _ hw hx hts =>
      cases hu with
      | word _ hv hy hus =>
          obtain ⟨rfl, htail⟩ := stretch_append_inj hw hv hx hy h
          exact ⟨rfl, hts, hus, htail⟩
      | sign _ _ | text _ => cases hkind
  | text hts =>
      cases hu with
      | text hus =>
          rw [spell_text, spell_text] at h
          obtain ⟨rfl, htail⟩ := escaped_append_inj hts hus (List.cons.inj h).2
          exact ⟨rfl, hts, hus, htail⟩
      | sign _ _ | word _ _ _ _ => cases hkind

/-- Tokens that stand apart are told by their characters. -/
theorem spell_inj {ts us : List Token} (ht : Separated ts) (hu : Separated us)
    (h : spell ts = spell us) : ts = us := by
  induction ts generalizing us with
  | nil =>
      cases us with
      | nil => rfl
      | cons u us =>
          have hhead := hu.kind_head
          rw [← h] at hhead
          cases hhead
  | cons t ts ih =>
      cases us with
      | nil =>
          have hhead := ht.kind_head
          rw [h] at hhead
          cases hhead
      | cons u us =>
          obtain ⟨rfl, hts, hus, htail⟩ := token_inj ht hu h
          rw [ih hts hus htail]

end TypeScript

end ApiTypes
