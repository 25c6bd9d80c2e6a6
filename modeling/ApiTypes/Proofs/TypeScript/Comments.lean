import ApiTypes.TypeScript.Interface
import Mathlib.Data.List.Infix

/-! # Comments

A text that is escaped closes no comment (`closings_escapeComment`), and what a comment puts around
its texts keeps them apart from each other and from what closes it (`closings_append`).  So the
comment of a property is closed once, at its end, and the header of an interface once more than its
url and its business would close it (`closings_header`): these two are written as they are.

Main definitions: `closings`, `ClosedOnce`. -/

namespace ApiTypes

namespace TypeScript

/-- What closes a comment. -/
def closing : List Char := ['*', '/']

/-- In how many places of a text a comment is closed. -/
def closings (s : List Char) : Nat := s.tails.countP fun t => closing.isPrefixOf t

/-- A comment is closed at the end of the lines, and in no other place of them. -/
def ClosedOnce (lines : List Char) : Prop := line closing <:+ lines ∧ closings lines = 1

instance (lines : List Char) : Decidable (ClosedOnce lines) :=
  inferInstanceAs (Decidable (_ ∧ _))

/-! ### Counting -/

theorem closings_cons (c : Char) (s : List Char) :
    closings (c :: s) = closings s + if c = '*' ∧ s.head? = some '/' then 1 else 0 := by
  have hstart : closing.isPrefixOf (c :: s) = true ↔ c = '*' ∧ s.head? = some '/' := by
    rw [List.isPrefixOf_iff_prefix]
    unfold closing
    rw [List.cons_prefix_cons]
    cases s with
    | nil => simp
    | cons d rest => simp [eq_comm]
  unfold closings
  rw [List.tails_cons, List.countP_cons]
  simp only [hstart]

theorem closings_cons_of_ne {c : Char} (hc : c ≠ '*') (s : List Char) :
    closings (c :: s) = closings s := by
  rw [closings_cons, if_neg fun h => hc h.1, Nat.add_zero]

/-- A comment is closed on one side or the other of a character that has no part in closing it. -/
theorem closings_append {c : Char} (hstar : c ≠ '*') (hslash : c ≠ '/') (before after : List Char) :
    closings (before ++ c :: after) = closings before + closings after := by
  induction before with
  | nil =>
      rw [List.nil_append, closings_cons_of_ne hstar]
      exact (Nat.zero_add _).symm
  | cons d rest ih =>
      have hhead : (rest ++ c :: after).head? = some '/' ↔ rest.head? = some '/' := by
        cases rest with
        | nil => simp [hslash]
        | cons e rest => rfl
      rw [List.cons_append, closings_cons, closings_cons, ih]
      simp only [hhead]
      omega

/-- A label that closes nothing is set apart by its last space. -/
theorem closings_label (label : List Char) (h : closings label = 0) (s : List Char) :
    closings (label ++ [' '] ++ s) = closings s := by
  rw [List.append_assoc, List.singleton_append, closings_append (by decide) (by decide), h,
    Nat.zero_add]

theorem closings_line (s : List Char) : closings (line s) = closings s :=
  closings_append (by decide) (by decide) s []

theorem closings_line_append (s rest : List Char) :
    closings (line s ++ rest) = closings s + closings rest := by
  unfold line
  rw [List.append_assoc]
  exact closings_append (by decide) (by decide) s rest

/-! ### Texts in comments -/

/-- Escaping changes no first character: what is put in begins with the character it replaces. -/
theorem head?_escapeComment (s : List Char) : (escapeComment s).head? = s.head? := by
  unfold escapeComment
  cases s with
  | nil => rfl
  | cons c rest =>
      cases rest with
      | nil => rfl
      | cons d rest =>
          rw [Text.replacePair]
          split
          · next h => simp [h]
          · rfl

theorem closings_escapeComment (s : List Char) : closings (escapeComment s) = 0 := by
  unfold escapeComment
  fun_induction Text.replacePair '*' '/' ['*', '\\', '/'] s with
  | case1 => rfl
  | case2 c => rw [closings_cons, if_neg (by simp)]; rfl
  | case3 c d rest h ih =>
      rw [List.cons_append, List.cons_append, List.cons_append, List.nil_append, closings_cons,
        closings_cons_of_ne (by decide), closings_cons_of_ne (by decide), ih]
      simp
  | case4 c d rest h ih =>
      have hhead : (Text.replacePair '*' '/' ['*', '\\', '/'] (d :: rest)).head? = some d :=
        head?_escapeComment (d :: rest)
      rw [closings_cons, ih, hhead, if_neg (by simpa using h)]

theorem closings_methodName (m : Method) : closings m.name.toList = 0 := by
  cases m <;> decide +kernel

/-! ### Headers and comments of properties -/

/-- The header of an interface is closed in one place, and wherever its url or its business closes a
comment. -/
theorem closings_header (i : Interface) :
    closings i.header = closings i.url.toList + closings i.business.toList + 1 := by
  have hsummary : closings (" * ".toList ++ escapeComment i.summary.toList) = 0 :=
    (closings_label [' ', '*'] rfl _).trans (closings_escapeComment _)
  have hurl : closings (" * @url ".toList ++ i.url.toList) = closings i.url.toList :=
    closings_label " * @url".toList (by decide +kernel) _
  have hmethod : closings (" * @method ".toList ++ i.method.name.toList) = 0 :=
    (closings_label " * @method".toList (by decide +kernel) _).trans
      (closings_methodName i.method)
  have hbusiness : closings (" * @business ".toList ++ i.business.toList) =
      closings i.business.toList :=
    closings_label " * @business".toList (by decide +kernel) _
  have hopen : closings "/**".toList = 0 := by decide +kernel
  have hempty : closings " *".toList = 0 := by decide +kernel
  have hclose : closings " */".toList = 1 := by decide +kernel
  unfold Interface.header
  split
  · simp only [List.append_assoc, List.nil_append, closings_line_append, closings_line, hurl,
      hmethod, hbusiness, hopen, hclose]
    omega
  · simp only [List.append_assoc, closings_line_append, closings_line, hsummary, hurl, hmethod,
      hbusiness, hopen, hempty, hclose]
    omega

theorem closedOnce_header_iff (i : Interface) :
    ClosedOnce i.header ↔ closings i.url.toList = 0 ∧ closings i.business.toList = 0 := by
  have hend : line closing <:+ i.header := by
    unfold Interface.header
    exact List.suffix_append_of_suffix ⟨[' '], rfl⟩
  unfold ClosedOnce
  rw [closings_header]
  constructor
  · rintro ⟨_, h⟩
    omega
  · rintro ⟨hurl, hbusiness⟩
    exact ⟨hend, by omega⟩

theorem Property.exists_description {p : Property} (h : p.comment ≠ []) : ∃ d,
    p.comment = line ("  /** ".toList ++ escapeComment d ++ " */".toList) := by
  unfold Property.comment at h ⊢
  split at h
  · exact absurd rfl h
  · next d _ =>
    split at h
    · exact absurd rfl h
    · next hd => exact ⟨d.toList, if_neg hd⟩

/-- The comment of a property is closed once, whatever its description. -/
theorem closedOnce_comment {p : Property} (h : p.comment ≠ []) : ClosedOnce p.comment := by
  obtain ⟨d, hd⟩ := p.exists_description h
  have htext : closings ("  /** ".toList ++ escapeComment d) = 0 :=
    (closings_label "  /**".toList (by decide +kernel) _).trans
      (closings_escapeComment d)
  have hclose : " */".toList = ' ' :: closing := rfl
  rw [hd, hclose]
  constructor
  · unfold line
    rw [List.append_assoc]
    exact List.suffix_append_of_suffix ⟨[' '], rfl⟩
  · rw [closings_line, closings_append (by decide) (by decide), htext]
    decide

/-! ### The text of types -/

theorem infix_flatMap {α β : Type} {l : List α} {a : α} (h : a ∈ l) (f : α → List β) :
    f a <:+: l.flatMap f := by
  rw [List.flatMap_def]
  exact List.infix_of_mem_flatten (List.mem_map_of_mem h)

end TypeScript

open TypeScript (closings ClosedOnce)

section text
variable {business : String} {policy : Policy} {ops : List BoundOperation}
  {i : TypeScript.Interface} (hi : i ∈ interfacesOf business policy ops)
include hi

theorem business_of_mem : i.business = business := by
  obtain ⟨o, _, ho⟩ := List.mem_flatMap.mp hi
  rcases List.mem_append.mp ho with h | h
  all_goals
    obtain ⟨name, _, rfl⟩ := Option.map_eq_some_iff.mp (Option.mem_toList.mp h)
    rfl

theorem infix_chars : i.chars <:+: (typesText business policy ops).toList := by
  unfold typesText
  rw [String.toList_ofList]
  exact TypeScript.infix_flatMap hi _

theorem infix_header : i.header <:+: (typesText business policy ops).toList := by
  have hchars : i.header <+: i.chars := by
    unfold TypeScript.Interface.chars
    simp only [List.append_assoc]
    exact List.prefix_append _ _
  exact hchars.isInfix.trans (infix_chars hi)

theorem infix_comment {p : TypeScript.Property} (hp : p ∈ i.properties) :
    p.comment <:+: (typesText business policy ops).toList := by
  have hproperty : p.comment <:+: p.chars := (List.prefix_append _ _).isInfix
  have hproperties : p.chars <:+: i.properties.flatMap (·.chars) := TypeScript.infix_flatMap hp _
  have hchars : i.properties.flatMap (·.chars) <:+: i.chars := by
    unfold TypeScript.Interface.chars
    rw [List.append_assoc]
    exact List.infix_append _ _ _
  exact ((hproperty.trans hproperties).trans hchars).trans (infix_chars hi)

end text

/-- In the text of types every comment is closed once, at its end, but for the headers: these exactly
if neither the url nor the business closes a comment. -/
theorem comments_closedOnce (business : String) (policy : Policy) (ops : List BoundOperation) :
    ∀ i ∈ interfacesOf business policy ops,
      (i.header <:+: (typesText business policy ops).toList ∧
        (ClosedOnce i.header ↔ closings i.url.toList = 0 ∧ closings business.toList = 0)) ∧
      ∀ p ∈ i.properties, p.comment ≠ [] →
        p.comment <:+: (typesText business policy ops).toList ∧ ClosedOnce p.comment := by
  intro i hi
  have hbusiness : i.business = business := business_of_mem hi
  refine ⟨⟨infix_header hi, ?_⟩, ?_⟩
  · rw [TypeScript.closedOnce_header_iff, hbusiness]
  · exact fun p hp h => ⟨infix_comment hi hp, TypeScript.closedOnce_comment h⟩

/-- An operation on a url that asks for something described, with what closes a comment in its
summary and in that description. -/
def askingAt (url : String) : BoundOperation where
  url := url
  method := .get
  summary := "Find */ one"
  requestTypeName := some "GetFilesMetaReqType"
  parameters := some [{ key := "kind", type := .primitive .string, description := some "**/ or //" }]

/-- What closes a comment is escaped in the summary and in the description. -/
theorem asking_closedOnce : ∃ i p, interfacesOf "pets" {} [askingAt "/files/{name}/meta"] = [i] ∧
    i.properties = [p] ∧ p.comment = "  /** **\\/ or // */\n".toList ∧
    closings i.url.toList = 0 ∧ closings "pets".toList = 0 ∧ ClosedOnce i.header ∧
    ClosedOnce p.comment := by
  have hmem := comments_closedOnce "pets" {} [askingAt "/files/{name}/meta"] _ List.mem_cons_self
  refine ⟨_, _, rfl, rfl, by decide +kernel, by decide +kernel, by decide +kernel,
    hmem.1.2.mpr ⟨by decide +kernel, by decide +kernel⟩, ?_⟩
  exact (hmem.2 _ List.mem_cons_self (by decide +kernel)).2

/-- A segment that ends in a star closes the header of its url. -/
theorem asking_closedTwice : ∃ i ∈ interfacesOf "pets" {} [askingAt "/files/*/meta"],
    closings i.header = 2 ∧ ¬ ClosedOnce i.header := by
  refine ⟨_, List.mem_cons_self, ?_⟩
  decide +kernel

end ApiTypes
