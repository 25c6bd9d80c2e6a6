import ApiTypes.Proofs.Noting
import ApiTypes.Resolution.Operations
import Mathlib.Data.List.Nodup

/-! # Parameters of an operation

An operation has the parameters of its path that none of its own replaces, and then, of its own, the
last of each name and location (`collectParameters_eq`).  What it has twice under one name and
location it inherits twice (`nodup_places_iff`).  It gets them wherever every reference has a name,
and no others then (`collectParameters_run`).

Main definitions: `Parameter.place`, `Binding.found`, `Binding.inherited`, `Binding.lastOnes`,
`Binding.collectOne`, `Binding.collected`, `Binding.missing`. -/

namespace ApiTypes

/-- The name and the location of a parameter. -/
def Parameter.place (p : Parameter) : String × Location := (p.name, p.location)

/-- The parameter itself, or the shared one that is referred to. -/
def Api.parameter? (api : Api) : RefOr Parameter → Option Parameter
  | .item p => some p
  | .ref path => (refName path).toOption.bind api.findParameter

namespace Binding

/-- The parameters that are found, in order. -/
def found (api : Api) (refs : List (RefOr Parameter)) : List Parameter :=
  refs.filterMap api.parameter?

/-- The parameters of the path that none of the operation replaces. -/
def inherited (api : Api) (ofPath ofOperation : List (RefOr Parameter)) : List Parameter :=
  (found api ofPath).filter fun p => !(found api ofOperation).any (sameParameter p)

/-- The last parameter of each name and location, in order. -/
def lastOnes : List Parameter → List Parameter
  | [] => []
  | p :: rest => if rest.any (sameParameter p) then lastOnes rest else p :: lastOnes rest

/-- The parameters of the path that are not replaced, then those of the operation. -/
def collected (api : Api) (ofPath ofOperation : List (RefOr Parameter)) : List Parameter :=
  inherited api ofPath ofOperation ++ lastOnes (found api ofOperation)

variable {api : Api} {ofPath ofOperation : List (RefOr Parameter)} {ps : List Parameter}

theorem sameParameter_iff {p q : Parameter} : sameParameter p q = true ↔ p.place = q.place := by
  simp [sameParameter, Parameter.place]

/-! ### What is collected -/

theorem lookupParameter_ref (api : Api) (path : String) : lookupParameter api (.ref path) = (do
    let name ← refName path
    match api.findParameter name with
    | some p => return some p
    | none =>
      Noting.note (.parameterMissing path)
      return none) := rfl

theorem lookupParameter_of_find {path name : String} {p : Parameter}
    (hname : refName path = .ok name) (hp : api.findParameter name = some p) :
    lookupParameter api (.ref path) = pure (some p) := by
  rw [lookupParameter_ref, hname]
  change (match api.findParameter name with
    | some p => _
    | none => _) = _
  rw [hp]

/-- A parameter of an operation is collected. -/
def collectOne (api : Api) (kept : List Parameter) (r : RefOr Parameter) :
    Noting InvalidRef (List Parameter) := do
  match ← lookupParameter api r with
  | some p => return kept.filter (!sameParameter · p) ++ [p]
  | none => return kept

theorem collectParameters_def (api : Api) (ofPath ofOperation : List (RefOr Parameter)) :
    collectParameters api ofPath ofOperation = (do
      let inherited ← ofPath.mapM (lookupParameter api)
      ofOperation.foldlM (collectOne api) (inherited.filterMap id)) := rfl

theorem lookupParameter_eq {r : RefOr Parameter} {o : Option Parameter}
    (h : Yields (lookupParameter api r) o) : o = api.parameter? r := by
  cases r with
  | item p => exact (yields_pure_iff.mp h).symm
  | ref path =>
      obtain ⟨name, hname, h⟩ := h.bind
      have hname : refName path = .ok name := Noting.eq_ok_of_yields_lift hname
      rw [Api.parameter?, hname]
      change o = api.findParameter name
      cases hp : api.findParameter name with
      | some p =>
          rw [hp] at h
          exact (yields_pure_iff.mp h).symm
      | none =>
          rw [hp] at h
          obtain ⟨_, _, h⟩ := h.bind
          exact (yields_pure_iff.mp h).symm

theorem found_eq {l : List (Option Parameter)}
    (h : List.Forall₂ (fun r o => Yields (lookupParameter api r) o) ofPath l) :
    l.filterMap id = found api ofPath := by
  unfold found
  induction h with
  | nil => rfl
  | cons hr _ ih =>
      obtain rfl := lookupParameter_eq hr
      rw [List.filterMap_cons, List.filterMap_cons, ih]
      rfl

/-- Each parameter replaces those of its name and location before it. -/
theorem foldl_replace (qs : List Parameter) : ∀ kept : List Parameter,
    qs.foldl (fun kept q => kept.filter (!sameParameter · q) ++ [q]) kept =
      (kept.filter fun p => !qs.any (sameParameter p)) ++ lastOnes qs := by
  induction qs with
  | nil =>
      intro kept
      simp [lastOnes]
  | cons q qs ih =>
      intro kept
      rw [List.foldl_cons, ih, List.filter_append, List.filter_filter, List.append_assoc]
      -- What `q` replaces is gone at once, and `q` itself stays unless a later one replaces it.
      congr 1
      · apply List.filter_congr
        intro p _
        simp [Bool.and_comm]
      · rw [lastOnes]
        by_cases hany : qs.any (sameParameter q) = true
        · rw [if_pos hany, List.filter_cons_of_neg (by simp [hany])]
          rfl
        · rw [if_neg hany, List.filter_cons_of_pos (by simpa using hany)]
          rfl

theorem collectParameters_eq (h : Yields (collectParameters api ofPath ofOperation) ps) :
    ps = collected api ofPath ofOperation := by
  obtain ⟨l, hl, h⟩ := h.bind
  rw [found_eq hl.mapM] at h
  unfold collected inherited
  rw [← foldl_replace]
  refine h.foldlM (fun pre kept => kept = (found api pre).foldl
    (fun kept q => kept.filter (!sameParameter · q) ++ [q]) (found api ofPath)) rfl ?_
  rintro pre r post kept kept' _ rfl hstep
  obtain ⟨o, ho, hstep⟩ := hstep.bind
  obtain rfl := lookupParameter_eq ho
  have hpre : found api (pre ++ [r]) = found api pre ++ (api.parameter? r).toList := by
    unfold found
    rw [List.filterMap_append]
    cases hr : api.parameter? r <;> simp [hr]
  rw [hpre, List.foldl_append]
  cases hr : api.parameter? r with
  | none =>
      rw [hr] at hstep
      exact (yields_pure_iff.mp hstep).symm
  | some p =>
      rw [hr] at hstep
      exact (yields_pure_iff.mp hstep).symm

/-! ### Names and locations -/

theorem mem_of_mem_lastOnes {p : Parameter} : ∀ {qs : List Parameter}, p ∈ lastOnes qs → p ∈ qs
  | q :: rest, h => by
      rw [lastOnes] at h
      split at h
      · exact List.mem_cons_of_mem _ (mem_of_mem_lastOnes h)
      · rcases List.mem_cons.mp h with rfl | h
        · exact List.mem_cons_self
        · exact List.mem_cons_of_mem _ (mem_of_mem_lastOnes h)

theorem nodup_lastOnes : ∀ qs : List Parameter, ((lastOnes qs).map Parameter.place).Nodup
  | [] => List.nodup_nil
  | q :: rest => by
      rw [lastOnes]
      split
      · exact nodup_lastOnes rest
      · next hnone =>
        rw [List.map_cons, List.nodup_cons]
        refine ⟨?_, nodup_lastOnes rest⟩
        intro hmem
        obtain ⟨p, hp, heq⟩ := List.mem_map.mp hmem
        apply hnone
        exact List.any_eq_true.mpr ⟨p, mem_of_mem_lastOnes hp, sameParameter_iff.mpr heq.symm⟩

theorem place_ne {p q : Parameter} (hp : p ∈ inherited api ofPath ofOperation)
    (hq : q ∈ lastOnes (found api ofOperation)) : p.place ≠ q.place := by
  intro heq
  have hnone := (List.mem_filter.mp hp).2
  rw [Bool.not_eq_true', List.any_eq_false] at hnone
  exact hnone q (mem_of_mem_lastOnes hq) (sameParameter_iff.mpr heq)

/-- Among the parameters of some kind, a name and location is there twice only where it is among
the inherited ones. -/
theorem nodup_places_iff (kind : Parameter → Bool) :
    (((collected api ofPath ofOperation).filter kind).map Parameter.place).Nodup ↔
      (((inherited api ofPath ofOperation).filter kind).map Parameter.place).Nodup := by
  unfold collected
  rw [List.filter_append, List.map_append, List.nodup_append]
  constructor
  · exact fun h => h.1
  · intro h
    refine ⟨h, (nodup_lastOnes _).sublist (List.filter_sublist.map _), ?_⟩
    intro a ha b hb
    obtain ⟨p, hp, rfl⟩ := List.mem_map.mp ha
    obtain ⟨q, hq, rfl⟩ := List.mem_map.mp hb
    exact place_ne (List.mem_of_mem_filter hp) (List.mem_of_mem_filter hq)

/-! ### Where every reference has a name -/

/-- What is noted where no parameter is found. -/
def missing (api : Api) : RefOr Parameter → List Notice
  | .item _ => []
  | .ref path => if (api.parameter? (.ref path)).isNone then [.parameterMissing path] else []

theorem lookupParameter_ends {r : RefOr Parameter}
    (hnamed : ∀ path, r = .ref path → ∃ name, refName path = .ok name) :
    Noting.Ends (lookupParameter api r) (api.parameter? r) (missing api r) := by
  cases r with
  | item p => exact .pure (some p)
  | ref path =>
      obtain ⟨name, hname⟩ := hnamed path rfl
      have hfind : api.parameter? (.ref path) = api.findParameter name := by
        rw [Api.parameter?, hname]
        rfl
      rw [lookupParameter_ref, hname, Noting.lift_ok_bind, missing, hfind]
      cases api.findParameter name with
      | some p => exact .pure (some p)
      | none => exact (Noting.Ends.note _).bind (.pure none)

theorem inherited_eq : inherited api ofPath ofOperation = (found api ofPath).filter
    fun p => p.place ∉ (found api ofOperation).map Parameter.place := by
  unfold inherited
  apply List.filter_congr
  intro p _
  rw [Bool.eq_iff_iff, Bool.not_eq_true', List.any_eq_false, decide_eq_true_iff]
  simp only [sameParameter_iff, List.mem_map, not_exists, not_and, eq_comm (a := p.place)]

theorem lookups_end {refs : List (RefOr Parameter)}
    (hnamed : ∀ path, .ref path ∈ refs → ∃ name, refName path = .ok name) :
    Noting.Ends (refs.mapM (lookupParameter api)) (refs.map api.parameter?)
      (refs.flatMap (missing api)) := by
  apply Noting.Ends.mapM
  intro r hr
  exact lookupParameter_ends fun path h => hnamed path (h ▸ hr)

theorem replacements_end {refs : List (RefOr Parameter)}
    (hnamed : ∀ path, .ref path ∈ refs → ∃ name, refName path = .ok name) (kept : List Parameter) :
    Noting.Ends (refs.foldlM (collectOne api) kept)
      ((found api refs).foldl (fun kept q => kept.filter (!sameParameter · q) ++ [q]) kept)
      (refs.flatMap (missing api)) := by
  rw [found, List.foldl_filterMap]
  apply Noting.Ends.foldlM
  intro kept r hr
  have hlookup : Noting.Ends (lookupParameter api r) (api.parameter? r) (missing api r) :=
    lookupParameter_ends fun path h => hnamed path (h ▸ hr)
  unfold collectOne
  rw [← List.append_nil (missing api r)]
  refine hlookup.bind ?_
  cases api.parameter? r with
  | some p => exact .pure _
  | none => exact .pure kept

/-- Where every reference has a name, an operation has the parameters of the path that are found and
have not the name and location of one of its own that is found, and then the last of each name and
location among its own that are found; all other references are noted.  No two of these have the same
name and location if no two of the path have. -/
theorem collectParameters_run
    (hnamed : ∀ path, .ref path ∈ ofPath ++ ofOperation → ∃ name, refName path = .ok name) :
    ∃ ps, ps = (found api ofPath).filter
          (fun p => p.place ∉ (found api ofOperation).map Parameter.place) ++
        lastOnes (found api ofOperation) ∧
      (∀ before, (collectParameters api ofPath ofOperation).run before =
        (.ok ps, before ++ (ofPath ++ ofOperation).flatMap (missing api))) ∧
      (((found api ofPath).map Parameter.place).Nodup → (ps.map Parameter.place).Nodup) := by
  refine ⟨collected api ofPath ofOperation, congrArg (· ++ _) inherited_eq, ?_, ?_⟩
  · rw [collectParameters_def, List.flatMap_append, collected, inherited, ← foldl_replace]
    refine (lookups_end fun path h => hnamed path (List.mem_append_left _ h)).bind ?_
    rw [List.filterMap_map]
    exact replacements_end (fun path h => hnamed path (List.mem_append_right _ h)) (found api ofPath)
  · intro hpath
    have hinherited : (((inherited api ofPath ofOperation).filter fun _ => true).map
        Parameter.place).Nodup := by
      rw [List.filter_true]
      exact hpath.sublist (List.filter_sublist.map _)
    have h := (nodup_places_iff fun _ => true).mpr hinherited
    rwa [List.filter_true] at h

/-- A search with a limit that is shared. -/
def searching : Api where
  openapi := some "3.0.0"
  info := { title := "Search", version := "1" }
  components := {
    parameters := Table.ofList [("Limit", .item { name := "limit", location := .query })] }

/-- The parameters of the path: the shared limit, an id, and one that is not declared. -/
def searchingPath : List (RefOr Parameter) := [
  .ref "#/components/parameters/Limit",
  .item { name := "id", location := .path, required := true },
  .ref "#/components/parameters/Sort"]

/-- The parameters of the operation: a limit of its own, declared twice, and a page. -/
def searchingOperation : List (RefOr Parameter) := [
  .item { name := "limit", location := .query, description := some "first" },
  .item { name := "page", location := .query },
  .item { name := "limit", location := .query, description := some "last" }]

/-- The id is left of the path, and the limit comes after the page, as its last declaration does. -/
theorem searching_run : (collectParameters searching searchingPath searchingOperation).run [] =
      (.ok [
        { name := "id", location := .path, required := true },
        { name := "page", location := .query },
        { name := "limit", location := .query, description := some "last" }],
      [.parameterMissing "#/components/parameters/Sort"]) ∧
    (∀ path, .ref path ∈ searchingPath ++ searchingOperation → ∃ name, refName path = .ok name) ∧
    ((found searching searchingPath).map Parameter.place).Nodup := by
  have hnamed : ∀ path, .ref path ∈ searchingPath ++ searchingOperation →
      ∃ name, refName path = .ok name := by
    intro path h
    simp only [searchingPath, searchingOperation, List.cons_append, List.nil_append, List.mem_cons,
      RefOr.ref.injEq, reduceCtorEq, false_or, or_false, List.not_mem_nil] at h
    rcases h with rfl | rfl
    · exact ⟨"Limit", rfl⟩
    · exact ⟨"Sort", rfl⟩
  obtain ⟨ps, hps, hrun, _⟩ := @collectParameters_run searching _ _ hnamed
  refine ⟨(hrun []).trans ?_, hnamed, by decide +kernel⟩
  rw [hps]
  rfl

end Binding

end ApiTypes
