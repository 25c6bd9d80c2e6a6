import ApiTypes.DocText
import ApiTypes.Proofs.Text.Words

/-! # Tags in descriptions

A tag is complete where a `>` follows its opening.  Cleaning drops the complete tags, and with them
everything from the first tag on that no `>` closes; of the rest it loses only blanks
(`inked_outsideTags`).  So nothing but complete tags and blanks is lost exactly if every tag that is
opened is closed (`inked_cleanDescription`).

Main definitions: `opens`, `outsideTags`, `unclosed`, `inked`. -/

namespace ApiTypes.DocText

/-! ### Openings -/

/-- Does the text start by opening a tag? -/
def opens : List Char → Bool
  | c :: d :: _ => c == '<' && opensTag d
  | _ => false

theorem opens_cons_cons {c d : Char} {rest : List Char} :
    opens (c :: d :: rest) = true ↔ c = '<' ∧ opensTag d = true := by
  simp [opens]

theorem head?_of_opens {s : List Char} (h : opens s = true) : s.head? = some '<' := by
  match s, h with
  | c :: d :: rest, h => rw [List.head?_cons, (opens_cons_cons.mp h).1]

/-- The text after the next `>`. -/
def afterTag (s : List Char) : List Char := (s.dropWhile (· != '>')).tail

theorem afterTag_cons (c : Char) (rest : List Char) :
    afterTag (c :: rest) = if c = '>' then rest else afterTag rest := by
  unfold afterTag
  by_cases h : c = '>' <;> simp [h]

theorem length_afterTag_le (s : List Char) : (afterTag s).length ≤ s.length := by
  unfold afterTag
  rw [List.length_tail]
  have := (List.dropWhile_suffix (· != '>') (l := s)).length_le
  omega

/-! ### What is dropped -/

theorem stripTags_cons (c : Char) (rest : List Char) :
    stripTags (c :: rest) = if opens (c :: rest) = true then skipTag rest else c :: stripTags rest := by
  cases rest with
  | nil => rfl
  | cons d rest => simp only [stripTags, opens_cons_cons]

theorem skipTag_of_mem {s : List Char} (h : '>' ∈ s) : skipTag s = ' ' :: stripTags (afterTag s) := by
  induction s with
  | nil => cases h
  | cons c rest ih =>
      rw [skipTag, afterTag_cons]
      split
      · rfl
      · next hc => exact ih ((List.mem_cons.mp h).resolve_left (Ne.symm hc))

theorem skipTag_of_not_mem {s : List Char} (h : '>' ∉ s) : skipTag s = [' '] := by
  induction s with
  | nil => rfl
  | cons c rest ih =>
      obtain ⟨hc, hrest⟩ := not_or.mp (mt List.mem_cons.mpr h)
      rw [skipTag, if_neg (Ne.symm hc), ih hrest]

/-! ### What is to be kept -/

/-- The text without its complete tags: each is dropped from its opening up to the next `>`. -/
def outsideTags : List Char → List Char
  | [] => []
  | c :: rest =>
    if opens (c :: rest) = true ∧ '>' ∈ rest then outsideTags (afterTag rest)
    else c :: outsideTags rest
termination_by s => s.length
decreasing_by
  · exact Nat.lt_succ_of_le (length_afterTag_le rest)
  · exact Nat.lt_succ_self _

/-- The text from the first opening of a tag on that no `>` closes; nothing where there is none. -/
def unclosed : List Char → List Char
  | [] => []
  | c :: rest => if opens (c :: rest) = true ∧ '>' ∉ rest then c :: rest else unclosed rest

/-- The text without its blanks. -/
def inked (s : List Char) : List Char := s.filter fun c => !Text.isBlank c

theorem inked_space_cons (s : List Char) : inked (' ' :: s) = inked s := rfl

theorem outsideTags_of_not_mem {s : List Char} (h : '>' ∉ s) : outsideTags s = s := by
  induction s with
  | nil => rw [outsideTags]
  | cons c rest ih =>
      have hrest : '>' ∉ rest := mt (List.mem_cons_of_mem c) h
      rw [outsideTags, if_neg fun hopen => hrest hopen.2, ih hrest]

/-- A `>` closes all tags before it. -/
theorem unclosed_afterTag {s : List Char} (h : '>' ∈ s) : unclosed (afterTag s) = unclosed s := by
  induction s with
  | nil => cases h
  | cons c rest ih =>
      rw [afterTag_cons]
      split
      · next hc =>
        have hopens : ¬ opens (c :: rest) = true := by
          intro hopens
          have hhead := head?_of_opens hopens
          rw [hc] at hhead
          exact absurd hhead (by simp)
        rw [unclosed, if_neg fun hopen => hopens hopen.1]
      · next hc =>
        have hrest := (List.mem_cons.mp h).resolve_left (Ne.symm hc)
        rw [ih hrest, unclosed, if_neg fun hopen => hopen.2 hrest]

theorem unclosed_eq_nil_iff (s : List Char) :
    unclosed s = [] ↔ ∀ t, t <:+ s → opens t = true → '>' ∈ t := by
  induction s with
  | nil =>
      refine iff_of_true rfl ?_
      rintro t ht hopens
      rw [List.suffix_nil.mp ht] at hopens
      cases hopens
  | cons c rest ih =>
      have hmem (hopens : opens (c :: rest) = true) : '>' ∈ c :: rest ↔ '>' ∈ rest := by
        obtain rfl := Option.some.inj (head?_of_opens hopens)
        simp
      rw [unclosed]
      simp only [List.suffix_cons_iff, forall_eq_or_imp, ← ih]
      split
      · next h => simp [h.1, hmem h.1, h.2]
      · next h =>
        refine (and_iff_right fun hopens => ?_).symm
        exact (hmem hopens).mpr (not_not.mp fun hnot => h ⟨hopens, hnot⟩)

theorem unclosed_eq_nil_or (s : List Char) : unclosed s = [] ∨ (unclosed s).head? = some '<' := by
  induction s with
  | nil => exact .inl rfl
  | cons c rest ih =>
      rw [unclosed]
      split
      · next h => exact .inr (head?_of_opens h.1)
      · exact ih

theorem inked_unclosed_eq_nil_iff (s : List Char) : inked (unclosed s) = [] ↔ unclosed s = [] := by
  rcases unclosed_eq_nil_or s with h | h
  · rw [h]
    exact iff_of_true rfl rfl
  · obtain ⟨rest, hrest⟩ := List.head?_eq_some_iff.mp h
    rw [hrest]
    exact iff_of_false (List.cons_ne_nil _ _) (List.cons_ne_nil _ _)

/-- Of what stands outside complete tags, what is opened and not closed is lost, and blanks. -/
theorem inked_outsideTags (s : List Char) :
    inked (outsideTags s) = inked (stripTags s) ++ inked (unclosed s) := by
  fun_induction outsideTags s with
  | case1 => rfl
  | case2 c rest h ih =>
      rw [ih, stripTags_cons, if_pos h.1, skipTag_of_mem h.2, inked_space_cons,
        unclosed_afterTag h.2, unclosed, if_neg fun hopen => hopen.2 h.2]
  | case3 c rest h ih =>
      rw [stripTags_cons, unclosed]
      by_cases hopens : opens (c :: rest) = true
      · have hrest : '>' ∉ rest := fun hmem => h ⟨hopens, hmem⟩
        rw [if_pos hopens, if_pos ⟨hopens, hrest⟩, outsideTags_of_not_mem hrest,
          skipTag_of_not_mem hrest]
        rfl
      · rw [if_neg hopens, if_neg fun hopen => hopens hopen.1]
        unfold inked at ih ⊢
        rw [List.filter_cons, List.filter_cons, ih]
        split <;> rfl

/-! ### Cleaning -/

theorem inked_cleaned (s : List Char) : inked (cleaned s) = inked (stripTags s) := by
  unfold cleaned inked
  rw [← Text.flatten_words, ← Text.flatten_words,
    Text.words_intercalate fun w hw => Text.isWord_of_mem_words hw]

theorem toList_cleanDescription (s : String) :
    ((cleanDescription s).getD "").toList = cleaned s.toList := by
  unfold cleanDescription
  dsimp only
  split
  · next h => exact (List.isEmpty_iff.mp h).symm
  · exact String.toList_ofList

/-- Of what a text says outside of complete tags, cleaning loses what follows the first tag that is
opened and not closed, and nothing else; so it loses nothing exactly if every tag is closed. -/
theorem inked_cleanDescription (s : String) :
    inked (outsideTags s.toList) =
        inked ((cleanDescription s).getD "").toList ++ inked (unclosed s.toList) ∧
      (inked ((cleanDescription s).getD "").toList = inked (outsideTags s.toList) ↔
        ∀ t, t <:+ s.toList → opens t = true → '>' ∈ t) := by
  have hsplit : inked (outsideTags s.toList) =
      inked ((cleanDescription s).getD "").toList ++ inked (unclosed s.toList) := by
    rw [toList_cleanDescription, inked_cleaned, inked_outsideTags]
  refine ⟨hsplit, ?_⟩
  rw [hsplit, ← unclosed_eq_nil_iff, ← inked_unclosed_eq_nil_iff, eq_comm, List.append_right_eq_self]

/-- A comparison without a space is taken for a tag, and what follows it is lost. -/
theorem limit_lost : cleanDescription "stock <limit of a day" = some "stock" ∧
    inked "stock".toList ≠ inked (outsideTags "stock <limit of a day".toList) := by
  rw [outsideTags_of_not_mem (by decide +kernel)]
  decide +kernel

end ApiTypes.DocText
