import ApiTypes.Generation.Generate
import ApiTypes.Proofs.Binding.Steadiness
import ApiTypes.Proofs.Resolution.Failure

/-! # What generation comes to

The types of a description end in the same whatever was noted before, so the files of several
descriptions are made of what each of them ends in alone (`generate_result`).  Generation fails for
the first description that fails alone, and that one for a reference of its own that names nothing;
where every reference names something, it succeeds (`generate_outcome`).

Main definitions: `GenerateError.IsOf`, `Fetched.Resolves`. -/

namespace ApiTypes

open Noting (Steady)

variable {policy : Policy} {documents : List Fetched}

/-! ### One description -/

theorem notedResolution_steady (schemas : Table Schema) :
    Steady (fun e => ∃ name s, schemas.get? name = some s ∧ s.references = .error e)
      (notedResolution schemas) := by
  refine (Steady.lift fun e he => exists_of_resolveSchemas_error he).bind fun r _ => ?_
  exact (Steady.forM_note r.notices).bind fun _ _ => .pure r.table

theorem boundOf_steady (f : Fetched) : Steady (InvalidRef.IsIn f.api.refs) (boundOf f) := by
  refine Steady.bind ((notedResolution_steady f.api.schemas).mono ?_) fun table _ => ?_
  · rintro e ⟨name, s, hs, he⟩
    exact (Schema.references_error he).mono (Api.refs_of_schemas hs)
  · exact (bindOperations_steady f.business).bind fun operations _ => .pure (table, operations)

/-- The error is that of an invalid reference of the description. -/
def GenerateError.IsOf (f : Fetched) (e : GenerateError) : Prop :=
  ∃ cause, e = .resolve f.business.name cause ∧ cause.IsIn f.api.refs

theorem typesOf_steady (f : Fetched) : Steady (GenerateError.IsOf f) (typesOf policy f) := by
  refine Steady.bind ((boundOf_steady f).adapt fun cause h => ⟨cause, rfl, h⟩) ?_
  rintro ⟨table, operations⟩ _
  exact (Steady.note _).bind fun _ _ => .note_pure _ _

/-- The named schemas and the operations of the description resolve. -/
def Fetched.Resolves (f : Fetched) : Prop := ∃ bound, (boundOf f).result = .ok bound

/-- A description has types where it resolves. -/
theorem exists_typesOf_iff {f : Fetched} :
    (∃ text, (typesOf policy f).result = .ok text) ↔ f.Resolves := by
  have hresult : (typesOf policy f).result =
      (boundOf f).result.mapError (.resolve f.business.name) >>= fun bound =>
        .ok (typesText f.business.name policy bound.2) :=
    Steady.result_bind fun bound _ =>
      (Steady.note (P := GenerateError.IsOf f) _).bind fun _ _ => .note_pure _ _
  unfold Fetched.Resolves
  rw [hresult]
  cases (boundOf f).result with
  | error e =>
      constructor
      · rintro ⟨_, h⟩
        cases h
      · rintro ⟨_, h⟩
        cases h
  | ok bound => exact ⟨fun _ => ⟨bound, rfl⟩, fun _ => ⟨_, rfl⟩⟩

/-! ### All descriptions -/

/-- The texts of the businesses, with that of one more description. -/
def addTypes (policy : Policy) (texts : Table String) (f : Fetched) :
    Except GenerateError (Table String) := do
  return addText texts f.business.name (← (typesOf policy f).result)

theorem generate_result : (generate policy documents).result = (do
    let texts ← documents.foldlM (addTypes policy) Table.empty
    return texts.entries.map fun (business, text) =>
      ⟨fileStem business ++ "." ++ typesExtension, text⟩) := by
  have hstep : ∀ texts f, Steady (fun _ => True) (do
      return addText texts f.business.name (← typesOf policy f)) := fun texts f =>
    Steady.bind ((typesOf_steady f).mono fun _ _ => trivial) fun text _ => .pure _
  unfold generate
  rw [Noting.result_bind_pure, Steady.result_foldlM hstep]
  simp only [Noting.result_bind_pure]
  rfl

theorem exists_texts_of_run {texts : Table String}
    (h : documents.foldlM (addTypes policy) Table.empty = .ok texts) :
    ∀ f ∈ documents, ∃ text, (typesOf policy f).result = .ok text := by
  refine Stepwise.Yields.foldlM (m := Except GenerateError) h
    (fun pre _ => ∀ f ∈ pre, ∃ text, (typesOf policy f).result = .ok text) (by simp) ?_
  intro pre f post texts texts' _ hpre hstep f' hf'
  obtain ⟨text, htext, _⟩ := bind_eq_ok.mp hstep
  rcases List.mem_append.mp hf' with hf' | hf'
  · exact hpre f' hf'
  · obtain rfl := List.mem_singleton.mp hf'
    exact ⟨text, htext⟩

/-- Generation succeeds exactly where each description succeeds alone. -/
theorem generate_ok_iff : (∃ files, (generate policy documents).result = .ok files) ↔
    ∀ f ∈ documents, ∃ text, (typesOf policy f).result = .ok text := by
  rw [generate_result]
  constructor
  · rintro ⟨files, h⟩
    obtain ⟨texts, htexts, _⟩ := bind_eq_ok.mp h
    exact exists_texts_of_run htexts
  · intro h
    have hrun : ∃ texts, documents.foldlM (addTypes policy) Table.empty = .ok texts ∧ True := by
      refine foldlM_induction (fun _ _ => True) trivial ?_
      intro pre f post texts hsplit _
      obtain ⟨text, htext⟩ := h f (hsplit ▸ by simp)
      exact ⟨_, bind_eq_ok.mpr ⟨text, htext, rfl⟩, trivial⟩
    obtain ⟨texts, htexts, _⟩ := hrun
    exact ⟨_, bind_eq_ok.mpr ⟨texts, htexts, rfl⟩⟩

/-- Where generation fails, it fails for the first description that fails alone. -/
theorem exists_of_generate_error {e : GenerateError}
    (h : (generate policy documents).result = .error e) :
    ∃ before f after, documents = before ++ f :: after ∧
      (∀ d ∈ before, ∃ text, (typesOf policy d).result = .ok text) ∧
      (typesOf policy f).result = .error e := by
  rw [generate_result] at h
  rcases bind_eq_error.mp h with h | ⟨_, _, h⟩
  · obtain ⟨before, f, after, texts, rfl, hbefore, h⟩ := exists_of_foldlM_eq_error h
    refine ⟨before, f, after, rfl, exists_texts_of_run hbefore, ?_⟩
    rcases bind_eq_error.mp h with h | ⟨_, _, h⟩
    · exact h
    · cases h
  · cases h

/-- Where every reference of every description names something, files are generated.  Where generation
fails, it fails for the first description that fails alone, and for a reference that stands in it and
names nothing. -/
theorem generate_outcome (policy : Policy) (documents : List Fetched) :
    ((∀ f ∈ documents, ∀ path ∈ f.api.refs, ¬ NamesNothing path) →
      ∃ files, (generate policy documents).result = .ok files) ∧
    ∀ e, (generate policy documents).result = .error e →
      ∃ before f after path, documents = before ++ f :: after ∧
        (∀ d ∈ before, ∃ text, (typesOf policy d).result = .ok text) ∧
        (typesOf policy f).result = .error e ∧
        e = .resolve f.business.name ⟨path⟩ ∧ path ∈ f.api.refs ∧ NamesNothing path := by
  constructor
  · intro hnamed
    refine generate_ok_iff.mpr fun f hf => ?_
    cases htypes : (typesOf policy f).result with
    | ok text => exact ⟨text, rfl⟩
    | error e =>
        obtain ⟨cause, _, hmem, hcause⟩ := (typesOf_steady f).error e htypes
        exact (hnamed f hf cause.path hmem (namesNothing_of_refName hcause)).elim
  · intro e h
    obtain ⟨before, f, after, hsplit, hbefore, hf⟩ := exists_of_generate_error h
    obtain ⟨cause, he, hmem, hcause⟩ := (typesOf_steady f).error e hf
    exact ⟨before, f, after, cause.path, hsplit, hbefore, hf, he, hmem,
      namesNothing_of_refName hcause⟩

/-- A description of the business with a property that refers along the path. -/
def referring (business path : String) : Fetched where
  business := { name := business }
  api := {
    info := { title := "", version := "" }
    definitions := Table.ofList [("Order", .inline { properties := [("item", .ref path)] })] }

/-- Of three descriptions the second and the third refer to nothing, and the second is blamed. -/
theorem referring_outcome :
    (∃ files, (generate {} [referring "pets" "#/definitions/Item"]).result = .ok files) ∧
    (generate {} [referring "pets" "Item", referring "shop" "#/definitions/",
      referring "zoo" ""]).result = .error (.resolve "shop" ⟨"#/definitions/"⟩) ∧
    ∃ before f after path, [referring "pets" "Item", referring "shop" "#/definitions/",
        referring "zoo" ""] = before ++ f :: after ∧
      (∀ d ∈ before, ∃ text, (typesOf {} d).result = .ok text) ∧
      (typesOf {} f).result = .error (.resolve "shop" ⟨"#/definitions/"⟩) ∧
      GenerateError.resolve "shop" ⟨"#/definitions/"⟩ = .resolve f.business.name ⟨path⟩ ∧
      path ∈ f.api.refs ∧ NamesNothing path := by
  have herror : (generate {} [referring "pets" "Item", referring "shop" "#/definitions/",
      referring "zoo" ""]).result = .error (.resolve "shop" ⟨"#/definitions/"⟩) := by
    decide +kernel
  refine ⟨(generate_outcome {} _).1 ?_, herror, (generate_outcome {} _).2 _ herror⟩
  intro f hf
  obtain rfl := List.mem_singleton.mp hf
  decide +kernel

end ApiTypes
