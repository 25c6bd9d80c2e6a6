import ApiTypes.Proofs.DocText.Tags

/-! # Cleaned descriptions

A cleaned text is one line that opens no tag: dropping a tag leaves a space in its place, and no
space has a part in opening another (`isChain_stripTags`).  These are exactly the texts that cleaning
leaves as they are, so cleaning twice is cleaning once (`cleanDescription_isOneLine`).

Main definitions: `lineBreaks`, `IsOneLine`. -/

namespace ApiTypes.DocText

/-- The characters that break lines. -/
def lineBreaks : List Char := ['\n', '\x0b', '\x0c', '\r', '\u0085', '\u2028', '\u2029']

/-- No tag is opened by the two neighbours. -/
def Apart (c d : Char) : Prop := c = '<' → opensTag d = false

/-- A line that is not empty, breaks nowhere and opens no tag. -/
structure IsOneLine (t : List Char) : Prop extends Text.IsLine t where
  ne_nil : t ≠ []
  unbroken : ∀ c ∈ t, c ∉ lineBreaks
  noTag : t.IsChain Apart

/-! ### No tag is opened -/

theorem apart_of_isBlank {c : Char} (hc : Text.isBlank c = true) (d : Char) : Apart c d := by
  rintro rfl
  exact absurd hc (by decide)

theorem not_opens_of_isChain {s : List Char} (h : s.IsChain Apart) : ¬ opens s = true := by
  intro hopens
  match s, h, hopens with
  | c :: d :: rest, h, hopens =>
    obtain ⟨hc, hd⟩ := opens_cons_cons.mp hopens
    rw [(List.isChain_cons_cons.mp h).1 hc] at hd
    cases hd

theorem stripTags_eq_self {s : List Char} (h : s.IsChain Apart) : stripTags s = s := by
  induction s with
  | nil => rfl
  | cons c rest ih =>
      rw [stripTags_cons, if_neg (not_opens_of_isChain h), ih h.tail]

/-- A tag leaves a space in its place. -/
theorem head?_skipTag (s : List Char) : (skipTag s).head? = some ' ' := by
  induction s with
  | nil => rfl
  | cons c rest ih =>
      rw [skipTag]
      split
      · rfl
      · exact ih

mutual
theorem isChain_stripTags : ∀ s : List Char, (stripTags s).IsChain Apart
  | [] => .nil
  | [c] => .singleton c
  | c :: d :: rest => by
      have ih := isChain_stripTags (d :: rest)
      rw [stripTags]
      split
      · exact isChain_skipTag (d :: rest)
      · next h =>
        refine List.isChain_cons.mpr ⟨fun e he => ?_, ih⟩
        rw [stripTags_cons] at he
        split at he
        · -- The next character opens a tag, so a space follows in its place.
          rw [head?_skipTag] at he
          obtain rfl := Option.some.inj he
          exact fun _ => rfl
        · obtain rfl := Option.some.inj he
          exact fun hc => Bool.eq_false_iff.mpr fun hd => h ⟨hc, hd⟩

theorem isChain_skipTag : ∀ s : List Char, (skipTag s).IsChain Apart
  | [] => .singleton ' '
  | c :: rest => by
      rw [skipTag]
      split
      · exact List.isChain_cons.mpr
          ⟨fun d _ => apart_of_isBlank (by decide) d, isChain_stripTags rest⟩
      · exact isChain_skipTag rest
end

/-! ### Cleaned texts -/

theorem isBlank_of_mem_lineBreaks {c : Char} (h : c ∈ lineBreaks) :
    Text.isBlank c = true ∧ c ≠ ' ' := by
  have hall : (lineBreaks.all fun c => Text.isBlank c && c != ' ') = true := by decide
  simpa using List.all_eq_true.mp hall c h

theorem isOneLine_cleaned {s : List Char} (h : cleaned s ≠ []) : IsOneLine (cleaned s) := by
  have hwords : ∀ w ∈ Text.words (stripTags s), Text.IsWord w :=
    fun w hw => Text.isWord_of_mem_words hw
  have hline : Text.IsLine (cleaned s) := Text.isLine_intercalate hwords
  refine { hline with ne_nil := h, unbroken := fun c hc hbreak => ?_, noTag := ?_ }
  · obtain ⟨hblank, hspace⟩ := isBlank_of_mem_lineBreaks hbreak
    exact hspace (hline.space c hc hblank)
  · refine Text.isChain_intercalate hwords ?_ (fun c _ _ => rfl) fun c _ =>
      apart_of_isBlank (by decide) c
    exact fun w hw => List.IsChain.infix (isChain_stripTags s) (Text.infix_of_mem_words hw)

theorem IsOneLine.cleaned_eq {t : List Char} (h : IsOneLine t) : cleaned t = t := by
  unfold cleaned
  rw [stripTags_eq_self h.noTag, h.intercalate_words]

theorem cleanDescription_eq_some_iff {s t : String} :
    cleanDescription s = some t ↔ cleaned s.toList = t.toList ∧ t.toList ≠ [] := by
  unfold cleanDescription
  dsimp only
  split
  · next h =>
    rw [List.isEmpty_iff.mp h]
    refine iff_of_false (by simp) fun hand => hand.2 hand.1.symm
  · next h =>
    have hne : cleaned s.toList ≠ [] := by simpa using h
    rw [Option.some.injEq]
    constructor
    · rintro rfl
      rw [String.toList_ofList]
      exact ⟨rfl, hne⟩
    · rintro ⟨heq, _⟩
      rw [heq, String.ofList_toList]

/-- Cleaning leaves nothing or one line that opens no tag, and leaves such a line as it is; so a
cleaned text stays what it is when it is cleaned again. -/
theorem cleanDescription_isOneLine (s : String) :
    (∀ t ∈ cleanDescription s, IsOneLine t.toList) ∧
      (∀ t, cleanDescription t = some t ↔ IsOneLine t.toList) ∧
      (cleanDescription s).bind cleanDescription = cleanDescription s := by
  have hline : ∀ s t, cleanDescription s = some t → IsOneLine t.toList := by
    intro s t h
    obtain ⟨heq, hne⟩ := cleanDescription_eq_some_iff.mp h
    rw [← heq] at hne ⊢
    exact isOneLine_cleaned hne
  have hfixed : ∀ t : String, IsOneLine t.toList → cleanDescription t = some t :=
    fun t h => cleanDescription_eq_some_iff.mpr ⟨h.cleaned_eq, h.ne_nil⟩
  refine ⟨hline s, fun t => ⟨hline t t, hfixed t⟩, ?_⟩
  cases h : cleanDescription s with
  | none => rfl
  | some t => exact hfixed t (hline s t h)

/-- The space in the place of a tag keeps a `<` before it from opening another one. -/
example : cleanDescription " a <<b>b\t</b> " = some "a < b" := by decide +kernel

end ApiTypes.DocText
