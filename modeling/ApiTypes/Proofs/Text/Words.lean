import ApiTypes.Text.Blank
import Mathlib.Data.List.Basic
import Mathlib.Data.List.Chain

/-! # Words and lines of words

The words of a text hold all of it but its blanks (`flatten_words`), and a line of words with single
spaces between them has these words and no others (`words_intercalate`).  The lines are the texts in
which no blank stands at an end or beside another blank (`isLine_intercalate`, `IsLine.exists_words`),
so a line is made again of its words (`IsLine.intercalate_words`).

Main definitions: `IsWord`, `IsLine`. -/

namespace ApiTypes.Text

/-! ### Cutting -/

section cutting
variable {cut : Char → Bool} {s : List Char}

theorem splitWhere_eq_splitOnP (cut : Char → Bool) :
    ∀ s : List Char, splitWhere cut s = s.splitOnP cut
  | [] => by rw [splitWhere, List.splitOnP_nil]
  | c :: rest => by
      rw [splitWhere, splitWhere_eq_splitOnP cut rest, List.splitOnP_cons_eq_if_modifyHead]
      cases h : List.splitOnP cut rest with
      | nil => exact absurd h (List.splitOnP_ne_nil cut rest)
      | cons piece pieces => rfl

theorem splitWhere_append_cut {c : Char} (hc : cut c = true) (rest s : List Char) :
    splitWhere cut (s ++ c :: rest) = splitWhere cut s ++ splitWhere cut rest := by
  simp only [splitWhere_eq_splitOnP]
  exact List.splitOnP_append_cons s rest hc

theorem splitWhere_of_uncut (h : ∀ c ∈ s, cut c = false) : splitWhere cut s = [s] := by
  rw [splitWhere_eq_splitOnP]
  exact List.splitOnP_eq_singleton h

theorem flatten_splitWhere (cut : Char → Bool) :
    ∀ s : List Char, (splitWhere cut s).flatten = s.filter fun c => !cut c
  | [] => rfl
  | c :: rest => by
      have ih := flatten_splitWhere cut rest
      rw [splitWhere, List.filter_cons, ← ih]
      cases hcut : cut c with
      | true => rfl
      | false =>
          cases hs : splitWhere cut rest with
          | nil => exact absurd hs (splitWhere_ne_nil cut rest)
          | cons piece pieces => rfl

/-- The first piece stands in front of the text, the others anywhere in it. -/
theorem exists_splitWhere_eq (cut : Char → Bool) (s : List Char) : ∃ piece pieces,
    splitWhere cut s = piece :: pieces ∧ piece <+: s ∧ ∀ p ∈ pieces, p <:+: s := by
  induction s with
  | nil => exact ⟨[], [], rfl, List.nil_prefix, List.forall_mem_nil _⟩
  | cons c rest ih =>
      obtain ⟨piece, pieces, hsplit, hpiece, hpieces⟩ := ih
      have hrest : rest <:+: c :: rest := (List.suffix_cons c rest).isInfix
      have hlater : ∀ p ∈ pieces, p <:+: c :: rest := fun p hp => (hpieces p hp).trans hrest
      rw [splitWhere, hsplit]
      cases cut c with
      | true =>
          refine ⟨[], piece :: pieces, rfl, List.nil_prefix, ?_⟩
          exact List.forall_mem_cons.mpr ⟨hpiece.isInfix.trans hrest, hlater⟩
      | false => exact ⟨c :: piece, pieces, rfl, List.cons_prefix_cons.mpr ⟨rfl, hpiece⟩, hlater⟩

theorem infix_of_mem_splitWhere {piece : List Char} (h : piece ∈ splitWhere cut s) :
    piece <:+: s := by
  obtain ⟨first, pieces, hsplit, hfirst, hpieces⟩ := exists_splitWhere_eq cut s
  rw [hsplit] at h
  rcases List.mem_cons.mp h with rfl | h
  · exact hfirst.isInfix
  · exact hpieces piece h

end cutting

/-! ### Words -/

/-- A text without blanks that is not empty. -/
structure IsWord (w : List Char) : Prop where
  ne_nil : w ≠ []
  unblank : ∀ c ∈ w, isBlank c = false

section words
variable {s w : List Char} {ws : List (List Char)}

theorem isWord_of_mem_words (h : w ∈ words s) : IsWord w := by
  obtain ⟨hpiece, hne⟩ := List.mem_filter.mp h
  refine ⟨by simpa using hne, fun c hc => ?_⟩
  have hmem := List.mem_flatten_of_mem hpiece hc
  rw [flatten_splitWhere, List.mem_filter] at hmem
  simpa using hmem.2

theorem infix_of_mem_words (h : w ∈ words s) : w <:+: s :=
  infix_of_mem_splitWhere (List.mem_filter.mp h).1

theorem flatten_words (s : List Char) : (words s).flatten = s.filter fun c => !isBlank c := by
  rw [← flatten_splitWhere]
  exact List.flatten_filter_not_isEmpty

theorem words_append_blank {c : Char} (hc : isBlank c = true) (rest s : List Char) :
    words (s ++ c :: rest) = words s ++ words rest := by
  unfold words
  rw [splitWhere_append_cut hc, List.filter_append]

theorem IsWord.words_eq (h : IsWord w) : words w = [w] := by
  unfold words
  rw [splitWhere_of_uncut h.unblank, List.filter_eq_self]
  simpa using h.ne_nil

/-- The words of a line are those that it is made of. -/
theorem words_intercalate (h : ∀ w ∈ ws, IsWord w) : words (List.intercalate [' '] ws) = ws := by
  induction ws with
  | nil => rfl
  | cons w ws ih =>
      obtain ⟨hw, hws⟩ := List.forall_mem_cons.mp h
      cases ws with
      | nil => rw [List.intercalate_singleton, hw.words_eq]
      | cons w' ws =>
          rw [List.intercalate_cons_cons, List.append_assoc, List.singleton_append,
            words_append_blank (by decide), hw.words_eq, ih hws, List.singleton_append]

end words

/-! ### Lines -/

section lines
variable {w : List Char} {ws : List (List Char)}

theorem mem_intercalate {c : Char} (h : c ∈ List.intercalate [' '] ws) :
    c = ' ' ∨ ∃ w ∈ ws, c ∈ w := by
  induction ws with
  | nil => cases h
  | cons w ws ih =>
      cases ws with
      | nil =>
          rw [List.intercalate_singleton] at h
          exact .inr ⟨w, List.mem_cons_self, h⟩
      | cons w' ws =>
          rw [List.intercalate_cons_cons] at h
          rcases List.mem_append.mp h with h | h
          · rcases List.mem_append.mp h with h | h
            · exact .inr ⟨w, List.mem_cons_self, h⟩
            · exact .inl (List.mem_singleton.mp h)
          · refine (ih h).imp_right ?_
            rintro ⟨v, hv, hc⟩
            exact ⟨v, List.mem_cons_of_mem w hv, hc⟩

theorem head?_intercalate_cons (hw : w ≠ []) :
    (List.intercalate [' '] (w :: ws)).head? = w.head? := by
  obtain ⟨c, rest, rfl⟩ := List.exists_cons_of_ne_nil hw
  rw [List.intercalate_cons_cons_left]
  rfl

theorem intercalate_cons_ne_nil (hw : w ≠ []) : List.intercalate [' '] (w :: ws) ≠ [] := by
  obtain ⟨c, rest, rfl⟩ := List.exists_cons_of_ne_nil hw
  rw [List.intercalate_cons_cons_left]
  exact List.cons_ne_nil _ _

theorem isBlank_of_mem_head?_intercalate (h : ∀ w ∈ ws, IsWord w) :
    ∀ c ∈ (List.intercalate [' '] ws).head?, isBlank c = false := by
  cases ws with
  | nil => exact fun c hc => absurd hc (Option.not_mem_none c)
  | cons w ws =>
      obtain ⟨hw, _⟩ := List.forall_mem_cons.mp h
      rw [head?_intercalate_cons hw.ne_nil]
      exact fun c hc => hw.unblank c (List.mem_of_mem_head? hc)

theorem isBlank_of_mem_getLast?_intercalate (h : ∀ w ∈ ws, IsWord w) :
    ∀ c ∈ (List.intercalate [' '] ws).getLast?, isBlank c = false := by
  induction ws with
  | nil => exact fun c hc => absurd hc (Option.not_mem_none c)
  | cons w ws ih =>
      obtain ⟨hw, hws⟩ := List.forall_mem_cons.mp h
      cases ws with
      | nil =>
          rw [List.intercalate_singleton]
          exact fun c hc => hw.unblank c (List.mem_of_mem_getLast? hc)
      | cons w' ws =>
          obtain ⟨hw', _⟩ := List.forall_mem_cons.mp hws
          rw [List.intercalate_cons_cons,
            List.getLast?_append_of_ne_nil _ (intercalate_cons_ne_nil hw'.ne_nil)]
          exact ih hws

/-- What holds of neighbours in each word, and of its ends beside a space, holds in the line. -/
theorem isChain_intercalate {R : Char → Char → Prop} (hwords : ∀ w ∈ ws, IsWord w)
    (hchain : ∀ w ∈ ws, w.IsChain R) (hbefore : ∀ c, isBlank c = false → R c ' ')
    (hafter : ∀ c, isBlank c = false → R ' ' c) : (List.intercalate [' '] ws).IsChain R := by
  induction ws with
  | nil => exact .nil
  | cons w ws ih =>
      obtain ⟨hw, hws⟩ := List.forall_mem_cons.mp hwords
      obtain ⟨hwchain, hwschain⟩ := List.forall_mem_cons.mp hchain
      cases ws with
      | nil => rwa [List.intercalate_singleton]
      | cons w' ws =>
          rw [List.intercalate_cons_cons, List.append_assoc, List.singleton_append,
            List.isChain_append, List.isChain_cons]
          refine ⟨hwchain, ⟨?_, ih hws hwschain⟩, ?_⟩
          · exact fun c hc => hafter c (isBlank_of_mem_head?_intercalate hws c hc)
          · rintro c hc _ ⟨rfl⟩
            exact hbefore c (hw.unblank c (List.mem_of_mem_getLast? hc))

/-- All blanks of the text are spaces, none at an end of it or beside another. -/
structure IsLine (s : List Char) : Prop where
  space : ∀ c ∈ s, isBlank c = true → c = ' '
  first : ∀ c ∈ s.head?, isBlank c = false
  last : ∀ c ∈ s.getLast?, isBlank c = false
  single : s.IsChain fun c d => isBlank c = true → isBlank d = false

theorem isLine_intercalate (h : ∀ w ∈ ws, IsWord w) : IsLine (List.intercalate [' '] ws) where
  space c hc hblank := by
    rcases mem_intercalate hc with rfl | ⟨w, hw, hcw⟩
    · rfl
    · rw [(h w hw).unblank c hcw] at hblank
      cases hblank
  first := isBlank_of_mem_head?_intercalate h
  last := isBlank_of_mem_getLast?_intercalate h
  single := by
    refine isChain_intercalate h (fun w hw => ?_) (fun c hc hblank => ?_) fun c hc _ => hc
    · refine (List.pairwise_of_forall_mem_list ?_).isChain
      exact fun _ _ d hd _ => (h w hw).unblank d hd
    · rw [hc] at hblank
      cases hblank

/-- A line is made of words: a space that is met ends one, and the next starts right after it. -/
theorem IsLine.exists_words :
    ∀ {s : List Char}, IsLine s → ∃ ws, (∀ w ∈ ws, IsWord w) ∧ List.intercalate [' '] ws = s
  | [], _ => ⟨[], List.forall_mem_nil _, rfl⟩
  | [c], h => by
      refine ⟨[[c]], ?_, List.intercalate_singleton⟩
      rw [List.forall_mem_singleton]
      exact ⟨List.cons_ne_nil c [], List.forall_mem_singleton.mpr (h.first c rfl)⟩
  | c :: d :: rest, h => by
      have hc : isBlank c = false := h.first c rfl
      obtain ⟨_, hchain⟩ := List.isChain_cons_cons.mp h.single
      have hspace : ∀ e ∈ d :: rest, isBlank e = true → e = ' ' :=
        fun e he => h.space e (List.mem_cons_of_mem c he)
      have hlast : ∀ e ∈ (d :: rest).getLast?, isBlank e = false := h.last
      cases hd : isBlank d with
      | false =>
          have hline : IsLine (d :: rest) := ⟨hspace, by rintro _ ⟨rfl⟩; exact hd, hlast, hchain⟩
          obtain ⟨ws, hws, heq⟩ := hline.exists_words
          cases ws with
          | nil => cases heq
          | cons w ws =>
              obtain ⟨hw, hws⟩ := List.forall_mem_cons.mp hws
              refine ⟨(c :: w) :: ws, List.forall_mem_cons.mpr ⟨⟨List.cons_ne_nil c w, ?_⟩, hws⟩, ?_⟩
              · exact List.forall_mem_cons.mpr ⟨hc, hw.unblank⟩
              · rw [List.intercalate_cons_cons_left, heq]
      | true =>
          obtain rfl := hspace d List.mem_cons_self hd
          cases rest with
          | nil => exact absurd (hlast ' ' rfl) (by decide)
          | cons e rest =>
              obtain ⟨he, hchain⟩ := List.isChain_cons_cons.mp hchain
              have hline : IsLine (e :: rest) :=
                ⟨fun e' he' => hspace e' (List.mem_cons_of_mem _ he'),
                  by rintro _ ⟨rfl⟩; exact he hd, hlast, hchain⟩
              obtain ⟨ws, hws, heq⟩ := hline.exists_words
              have hne : ws ≠ [] := by
                rintro rfl
                cases heq
              refine ⟨[c] :: ws, List.forall_mem_cons.mpr ⟨⟨List.cons_ne_nil c [], ?_⟩, hws⟩, ?_⟩
              · exact List.forall_mem_singleton.mpr hc
              · rw [List.intercalate_cons_of_ne_nil hne, heq]
                rfl

theorem IsLine.intercalate_words {s : List Char} (h : IsLine s) :
    List.intercalate [' '] (words s) = s := by
  obtain ⟨ws, hws, rfl⟩ := h.exists_words
  rw [words_intercalate hws]

end lines

end ApiTypes.Text
