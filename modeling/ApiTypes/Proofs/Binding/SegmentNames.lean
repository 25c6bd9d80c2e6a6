import ApiTypes.Proofs.Binding.TypeNames
import ApiTypes.Proofs.Text.Pascal
import Mathlib.Data.List.SplitBy

/-! # Segments read back from names

A plain segment is a small letter with small letters and digits after it, so its name has one capital,
in front.  Cut before its capitals, the name of a path gives the names of its segments, and in small
letters these are the segments (`piecesOf_pathName`).  So types of operations on plain paths share a
name only if method, side and segments are the same (`typeName_eq_iff_of_isPlain`).

Main definitions: `TypeName.IsPlain`, `TypeName.piecesOf`. -/

namespace ApiTypes

namespace TypeName

/-- A small letter or a digit, in ASCII. -/
def IsSmall (c : Char) : Prop := c.isLower = true ∨ c.isDigit = true

/-- A small letter with small letters and digits after it, in ASCII. -/
def IsPlain : List Char → Prop
  | [] => False
  | c :: rest => c.isLower = true ∧ ∀ d ∈ rest, IsSmall d

/-- The pieces of a name, cut before its capitals, in small letters. -/
def piecesOf (name : List Char) : List (List Char) :=
  (name.splitBy fun _ d => !d.isUpper).map (·.map Char.toLower)

instance : DecidablePred IsSmall := fun _ => inferInstanceAs (Decidable (_ ∨ _))

instance : DecidablePred IsPlain
  | [] => inferInstanceAs (Decidable False)
  | c :: rest =>
    decidable_of_iff (c.isLower = true ∧ (rest.all fun d => decide (IsSmall d)) = true)
      (by simp [IsPlain])

/-! ### Small letters and capitals -/

theorem IsSmall.isAscii {c : Char} (h : IsSmall c) : c.toNat < 0x80 := by
  apply Text.isAscii_of_isAlphanum
  show ((c.isUpper || c.isLower) || c.isDigit) = true
  rcases h with h | h <;> simp [h]

theorem IsSmall.isUpper {c : Char} (h : IsSmall c) : c.isUpper = false :=
  Text.forall_ascii (P := fun c => IsSmall c → c.isUpper = false) (by decide +kernel) h.isAscii h

theorem IsSmall.toLower {c : Char} (h : IsSmall c) : c.toLower = c :=
  Text.forall_ascii (P := fun c => IsSmall c → c.toLower = c) (by decide +kernel) h.isAscii h

/-- The capital of a small letter gives it back. -/
theorem toUpper_of_isLower {c : Char} (h : c.isLower = true) :
    c.toUpper.isUpper = true ∧ c.toUpper.toLower = c :=
  Text.forall_ascii
    (P := fun c => c.isLower = true → c.toUpper.isUpper = true ∧ c.toUpper.toLower = c)
    (by decide +kernel) (IsSmall.isAscii (.inl h)) h

/-! ### Names of plain segments -/

/-- The name of a plain segment is the segment with its first letter in upper case. -/
theorem segmentName_cons {c : Char} {rest : List Char} (h : IsPlain (c :: rest)) :
    segmentName (c :: rest) = c.toUpper :: rest := by
  have hsmall : ∀ d ∈ c :: rest, IsSmall d := List.forall_mem_cons.mpr ⟨.inl h.1, h.2⟩
  have hunmarked : ¬ ((c :: rest).contains '_' || (c :: rest).contains '-') = true := by
    rw [Bool.or_eq_true, List.contains_iff_mem, List.contains_iff_mem]
    rintro (hmem | hmem)
    · exact absurd (hsmall '_' hmem) (by decide)
    · exact absurd (hsmall '-' hmem) (by decide)
  unfold segmentName
  rw [if_neg hunmarked, Text.capitalize, Text.upper_ascii (hsmall c List.mem_cons_self).isAscii]
  rfl

/-- In small letters the name of a plain segment is the segment. -/
theorem map_toLower_segmentName {s : List Char} (h : IsPlain s) :
    (segmentName s).map Char.toLower = s := by
  match s, h with
  | c :: rest, h =>
    rw [segmentName_cons h, List.map_cons, (toUpper_of_isLower h.1).2]
    congr 1
    exact (List.map_congr_left fun d hd => (h.2 d hd).toLower).trans (List.map_id rest)

/-- Words with one capital each, in front, are the pieces between the capitals of their text. -/
theorem splitBy_flatten_of_capitals {ws : List (List Char)}
    (h : ∀ w ∈ ws, ∃ c rest, w = c :: rest ∧ c.isUpper = true ∧ ∀ d ∈ rest, d.isUpper = false) :
    ws.flatten.splitBy (fun _ d => !d.isUpper) = ws := by
  apply List.splitBy_flatten
  · intro hmem
    obtain ⟨c, rest, heq, _⟩ := h [] hmem
    cases heq
  · intro w hw
    obtain ⟨c, rest, rfl, _, hrest⟩ := h w hw
    rw [List.isChain_cons]
    refine ⟨fun d hd => ?_, (List.pairwise_of_forall_mem_list fun _ _ d hd => ?_).isChain⟩
    · simp [hrest d (List.mem_of_mem_head? hd)]
    · simp [hrest d hd]
  · refine (List.pairwise_of_forall_mem_list fun w hw w' hw' => ?_).isChain
    obtain ⟨c, rest, rfl, _⟩ := h w hw
    obtain ⟨c', rest', rfl, hc', _⟩ := h w' hw'
    exact ⟨List.cons_ne_nil c rest, List.cons_ne_nil c' rest', by simp [hc']⟩

end TypeName

/-- The segments of a plain path are read back from its name. -/
theorem piecesOf_pathName {url : String} (h : ∀ s ∈ TypeName.segments url.toList, TypeName.IsPlain s) :
    TypeName.piecesOf (pathName url) = TypeName.segments url.toList := by
  unfold TypeName.piecesOf pathName
  rw [List.flatMap_def, TypeName.splitBy_flatten_of_capitals, List.map_map]
  · refine (List.map_congr_left fun s hs => ?_).trans (List.map_id _)
    exact TypeName.map_toLower_segmentName (h s hs)
  · intro w hw
    obtain ⟨s, hs, rfl⟩ := List.mem_map.mp hw
    match s, h s hs with
    | c :: rest, hplain =>
      exact ⟨c.toUpper, rest, TypeName.segmentName_cons hplain,
        (TypeName.toUpper_of_isLower hplain.1).1, fun d hd => (hplain.2 d hd).isUpper⟩

/-- Under one business the types of operations on plain paths have the same name exactly if method,
side and segments are the same. -/
theorem typeName_eq_iff_of_isPlain {m m' : Method} {url url' : String} {role role' : Role}
    {b : Business} (h : ∀ s ∈ TypeName.segments url.toList, TypeName.IsPlain s)
    (h' : ∀ s ∈ TypeName.segments url'.toList, TypeName.IsPlain s) :
    typeName m url role b = typeName m' url' role' b ↔
      m = m' ∧ role = role' ∧
        TypeName.segments url.toList = TypeName.segments url'.toList := by
  rw [typeName_eq_iff]
  refine and_congr_right fun _ => and_congr_right fun _ => ⟨fun hpath => ?_, fun hsegments => ?_⟩
  · rw [← piecesOf_pathName h, ← piecesOf_pathName h', hpath]
  · unfold pathName
    rw [hsegments]

/-- Braces, doubled slashes and the segment that names leave out make no difference, where a segment
ends does. -/
theorem shelves_name :
    (∀ s ∈ TypeName.segments "/api/shelves/{id}".toList, TypeName.IsPlain s) ∧
    (∀ s ∈ TypeName.segments "/shelves//id".toList, TypeName.IsPlain s) ∧
    (∀ s ∈ TypeName.segments "/shelves/idreq/type".toList, TypeName.IsPlain s) ∧
    typeName .get "/api/shelves/{id}" .request {} = typeName .get "/shelves//id" .request {} ∧
    typeName .get "/shelves//id" .request {} ≠ typeName .get "/shelves/idreq/type" .request {} := by
  have hapi : ∀ s ∈ TypeName.segments "/api/shelves/{id}".toList, TypeName.IsPlain s := by
    decide +kernel
  have hshelf : ∀ s ∈ TypeName.segments "/shelves//id".toList, TypeName.IsPlain s := by
    decide +kernel
  have htype : ∀ s ∈ TypeName.segments "/shelves/idreq/type".toList, TypeName.IsPlain s := by
    decide +kernel
  refine ⟨hapi, hshelf, htype, ?_, fun heq => ?_⟩
  · exact (typeName_eq_iff_of_isPlain hapi hshelf).mpr ⟨rfl, rfl, by decide +kernel⟩
  · obtain ⟨_, _, hsegments⟩ := (typeName_eq_iff_of_isPlain hshelf htype).mp heq
    exact absurd hsegments (by decide +kernel)

end ApiTypes
