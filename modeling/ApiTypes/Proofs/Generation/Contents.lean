import ApiTypes.Proofs.Generation.Outcome
import ApiTypes.Proofs.Tables

/-! # Contents of generated files

There is one file for each business, in the order in which they first occur, and it holds the texts of
the descriptions of that business, in their order, and nothing else (`generate_contents`).  So the
descriptions of one business may stand among those of others in any way.

Main definitions: `textOf`, `businessesOf`, `ofBusiness`, `pathOf`, `fileOf`. -/

namespace ApiTypes

variable {policy : Policy} {documents : List Fetched}

/-- The text of the types of a description, nothing where it has none. -/
def textOf (policy : Policy) (f : Fetched) : String := (typesOf policy f).result.toOption.getD ""

/-- The names of the businesses, each where it first occurs. -/
def businessesOf (documents : List Fetched) : List String :=
  (documents.map (·.business.name)).eraseDups

/-- The descriptions of a business, in their order. -/
def ofBusiness (documents : List Fetched) (business : String) : List Fetched :=
  documents.filter (·.business.name == business)

/-- The path of the file of a business. -/
def pathOf (business : String) : String := fileStem business ++ "." ++ typesExtension

/-- The file of a business: the texts of its descriptions, in their order. -/
def fileOf (policy : Policy) (documents : List Fetched) (business : String) : GeneratedFile :=
  ⟨pathOf business, String.join ((ofBusiness documents business).map (textOf policy))⟩

theorem mem_businessesOf {business : String} :
    business ∈ businessesOf documents ↔ ∃ f ∈ documents, f.business.name = business := by
  unfold businessesOf
  rw [List.mem_eraseDups, List.mem_map]

theorem ofBusiness_append (documents more : List Fetched) (business : String) :
    ofBusiness (documents ++ more) business =
      ofBusiness documents business ++ ofBusiness more business :=
  List.filter_append documents more

theorem businessesOf_append_singleton (documents : List Fetched) (f : Fetched) :
    businessesOf (documents ++ [f]) =
      if f.business.name ∈ businessesOf documents then businessesOf documents
      else businessesOf documents ++ [f.business.name] := by
  unfold businessesOf
  rw [List.map_append, List.eraseDups_append, List.map_singleton]
  generalize documents.map (·.business.name) = names
  by_cases h : f.business.name ∈ names
  · rw [if_pos (List.mem_eraseDups.mpr h)]
    simp [List.removeAll, h]
  · rw [if_neg (mt List.mem_eraseDups.mp h)]
    simp [List.removeAll, h, List.eraseDups_cons]

/-! ### Texts that are collected -/

/-- What the collected texts are after some descriptions. -/
structure Collects (policy : Policy) (documents : List Fetched) (texts : Table String) : Prop where
  keys : texts.keys = businessesOf documents
  content : ∀ business, (texts.get? business).getD "" = (fileOf policy documents business).content

theorem Collects.step {texts texts' : Table String} {f : Fetched}
    (h : Collects policy documents texts) (hstep : addTypes policy texts f = .ok texts') :
    Collects policy (documents ++ [f]) texts' := by
  obtain ⟨text, htext, hstep⟩ := bind_eq_ok.mp hstep
  obtain rfl := Except.ok.inj hstep
  have htextOf : textOf policy f = text := by
    unfold textOf
    rw [htext]
    rfl
  constructor
  · rw [businessesOf_append_singleton, ← h.keys]
    by_cases hmem : f.business.name ∈ texts.keys
    · rw [if_pos hmem]
      exact texts.keys_insert_of_mem _ hmem
    · rw [if_neg hmem]
      exact texts.keys_insert_of_not_mem _ hmem
  · intro business
    unfold addText fileOf
    rw [Table.get?_insert, ofBusiness_append, List.map_append, String.join_append]
    by_cases hbusiness : business = f.business.name
    · subst hbusiness
      rw [if_pos rfl, Option.getD_some, h.content]
      simp [fileOf, ofBusiness, htextOf]
    · have hnone : ofBusiness [f] business = [] := by
        simpa [ofBusiness] using fun heq => hbusiness heq.symm
      rw [if_neg hbusiness, h.content, hnone]
      simp [fileOf]

theorem collects_of_run {texts : Table String}
    (h : documents.foldlM (addTypes policy) Table.empty = .ok texts) :
    Collects policy documents texts := by
  refine Stepwise.Yields.foldlM (m := Except GenerateError) h (Collects policy)
    ⟨rfl, fun _ => rfl⟩ ?_
  intro pre f post texts texts' _ hpre hstep
  exact hpre.step hstep

/-- Generation ends in the files of the businesses. -/
theorem generate_eq {files : List GeneratedFile}
    (h : (generate policy documents).result = .ok files) :
    files = (businessesOf documents).map (fileOf policy documents) ∧
      (businessesOf documents).Nodup := by
  rw [generate_result] at h
  obtain ⟨texts, htexts, h⟩ := bind_eq_ok.mp h
  obtain rfl := Except.ok.inj h
  have hcollects := collects_of_run htexts
  rw [texts.entries_eq_map_keys "", hcollects.keys, List.map_map]
  refine ⟨List.map_congr_left fun business _ => ?_, hcollects.keys ▸ texts.nodup_keys⟩
  simp only [Function.comp_apply, hcollects.content]
  rfl

/-! ### Descriptions among those of others -/

theorem flatMap_ofBusiness_perm {names : List String} (h : names.Nodup) :
    (names.flatMap (ofBusiness documents)).Perm
      (documents.filter fun f => decide (f.business.name ∈ names)) := by
  induction names with
  | nil => simp
  | cons name names ih =>
      obtain ⟨hname, hnames⟩ := List.nodup_cons.mp h
      rw [List.flatMap_cons]
      refine ((ih hnames).append_left _).trans ?_
      -- The descriptions of the names are those of the first and those of the others.
      refine List.Perm.trans (List.Perm.of_eq ?_) (List.filter_append_perm
        (·.business.name == name) (documents.filter fun f => decide (f.business.name ∈ name :: names)))
      rw [List.filter_filter, List.filter_filter]
      congr 1
      · apply List.filter_congr
        intro f _
        by_cases hf : f.business.name = name <;> simp [hf]
      · apply List.filter_congr
        intro f _
        by_cases hf : f.business.name = name
        · simp [hf, hname]
        · simp [hf]

/-- Both lists have the same descriptions of each business, in the same order. -/
def SameOrder (documents others : List Fetched) : Prop :=
  ∀ business, ofBusiness others business = ofBusiness documents business

theorem SameOrder.mem_iff {others : List Fetched} (h : SameOrder documents others) {f : Fetched} :
    f ∈ others ↔ f ∈ documents := by
  have hself : ∀ {l : List Fetched}, f ∈ l ↔ f ∈ ofBusiness l f.business.name := by
    intro l
    simp [ofBusiness]
  rw [hself, h, ← hself]

/-- The files are one for each business, in the order in which the businesses first occur, and each
holds the texts of the descriptions of its business in their order.  Every description is one of
exactly one business.  With the descriptions in another order that keeps the order within each
business, every file holds the same. -/
theorem generate_contents {files : List GeneratedFile}
    (h : (generate policy documents).result = .ok files) :
    (∀ f ∈ documents, (typesOf policy f).result = .ok (textOf policy f)) ∧
      files = (businessesOf documents).map (fileOf policy documents) ∧
      (businessesOf documents).Nodup ∧
      ((businessesOf documents).flatMap (ofBusiness documents)).Perm documents ∧
      ∀ others, SameOrder documents others →
        (generate policy others).result =
          .ok ((businessesOf others).map (fileOf policy documents)) ∧
        (businessesOf others).Perm (businessesOf documents) := by
  have htexts := generate_ok_iff.mp ⟨files, h⟩
  obtain ⟨hfiles, hnodup⟩ := generate_eq h
  refine ⟨?_, hfiles, hnodup, ?_, ?_⟩
  · intro f hf
    obtain ⟨text, htext⟩ := htexts f hf
    unfold textOf
    rw [htext]
    rfl
  · refine (flatMap_ofBusiness_perm hnodup).trans (List.Perm.of_eq (List.filter_eq_self.mpr ?_))
    intro f hf
    exact decide_eq_true (mem_businessesOf.mpr ⟨f, hf, rfl⟩)
  · intro others hothers
    obtain ⟨files', h'⟩ := generate_ok_iff.mpr fun f hf => htexts f (hothers.mem_iff.mp hf)
    obtain ⟨hfiles', hnodup'⟩ := generate_eq h'
    have hsame : fileOf policy others = fileOf policy documents := by
      funext business
      unfold fileOf
      rw [hothers business]
    refine ⟨by rw [h', hfiles', hsame], ?_⟩
    refine (List.perm_ext_iff_of_nodup hnodup' hnodup).mpr fun business => ?_
    simp only [mem_businessesOf, hothers.mem_iff]

/-- A description of the business with a request that is answered with a name. -/
def answering (business url : String) : Fetched where
  business := { name := business }
  api := {
    info := { title := "", version := "" }
    paths := Table.ofList [(url, {
      operation := fun
        | .get => some { responses := Table.ofList [("200", .item { schema := some (.inline {
            properties := [("name", .inline { type := some (.single .string) })] }) })] }
        | _ => none })] }

/-- A shop between two descriptions of pets. -/
def shopBetween : List Fetched :=
  [answering "pets" "/cats", answering "shop" "/orders", answering "pets" "/dogs"]

/-- The shop before them. -/
def shopFirst : List Fetched :=
  [answering "shop" "/orders", answering "pets" "/cats", answering "pets" "/dogs"]

theorem shopFirst_contents : (∃ files, (generate {} shopBetween).result = .ok files) ∧
    SameOrder shopBetween shopFirst ∧
    (generate {} shopFirst).result = .ok [
      ⟨"shop.ts", textOf {} (answering "shop" "/orders")⟩,
      ⟨"pets.ts", textOf {} (answering "pets" "/cats") ++ textOf {} (answering "pets" "/dogs")⟩] := by
  have hok : (generate {} shopBetween).result.toOption.isSome = true := by decide +kernel
  obtain ⟨files, hfiles⟩ := Option.isSome_iff_exists.mp hok
  have hfiles := toOption_eq_some_iff.mp hfiles
  have hpets : ofBusiness shopBetween "pets" =
      [answering "pets" "/cats", answering "pets" "/dogs"] := rfl
  have hshop : ofBusiness shopBetween "shop" = [answering "shop" "/orders"] := rfl
  have horder : SameOrder shopBetween shopFirst := by
    intro business
    by_cases hp : "pets" = business
    · subst hp
      rfl
    · by_cases hs : "shop" = business
      · subst hs
        rfl
      · simp [ofBusiness, shopBetween, shopFirst, answering, hp, hs]
  obtain ⟨_, _, _, _, hothers⟩ := generate_contents hfiles
  refine ⟨⟨files, hfiles⟩, horder, (hothers _ horder).1.trans ?_⟩
  have hnames : businessesOf shopFirst = ["shop", "pets"] := by decide +kernel
  have hpaths : pathOf "shop" = "shop.ts" ∧ pathOf "pets" = "pets.ts" := by decide +kernel
  rw [hnames]
  simp [fileOf, hpets, hshop, hpaths]

end ApiTypes
