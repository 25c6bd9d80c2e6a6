import ApiTypes.Proofs.Files.Paths
import ApiTypes.Proofs.Generation.Contents
import Mathlib.Data.List.Nodup

/-! # Paths of generated files

There is one file for each business that has a description, and its path says of the name of the
business what is left of it once separators are rewritten.  So the paths are distinct exactly when
no two of the names differ in their separators alone (`paths_nodup_iff`). -/

namespace ApiTypes

variable {policy : Policy} {documents : List Fetched}

theorem pathOf_inj {a b : String} : pathOf a = pathOf b ↔ fileStem a = fileStem b := by
  unfold pathOf
  rw [String.append_left_inj, String.append_left_inj]

theorem isFileName_pathOf (business : String) : Path.IsFileName (pathOf business) := by
  have hend : (pathOf business).toList = (fileStem business).toList ++ ['.', 't', 's'] := by
    unfold pathOf
    rw [String.toList_append, String.toList_append, List.append_assoc]
    rfl
  have hlong : ∀ other : String, other.toList.length < 3 → pathOf business ≠ other := by
    rintro other hother rfl
    rw [hend, List.length_append] at hother
    change _ + 3 < 3 at hother
    omega
  refine ⟨?_, hlong "" (by decide), hlong "." (by decide), hlong ".." (by decide)⟩
  intro c hc
  rw [hend, List.mem_append] at hc
  rcases hc with hc | hc
  · unfold fileStem at hc
    rw [String.toList_ofList] at hc
    obtain ⟨d, _, rfl⟩ := List.mem_map.mp hc
    by_cases hd : (d == '/' || d == '\\') = true
    · rw [if_pos hd]
      rfl
    · rw [if_neg hd]
      simp only [Bool.or_eq_true, not_or, Bool.not_eq_true] at hd
      exact hd.1
  · simp only [List.mem_cons, List.not_mem_nil, or_false] at hc
    rcases hc with rfl | rfl | rfl <;> rfl

/-- The files are those of the businesses, in their order. -/
theorem map_path_eq {files : List GeneratedFile}
    (h : (generate policy documents).result = .ok files) :
    files.map (·.path) = (businessesOf documents).map pathOf := by
  rw [(generate_eq h).1, List.map_map]
  rfl

/-- The files have distinct paths exactly when names that are rewritten alike are equal. -/
theorem paths_nodup_iff {files : List GeneratedFile}
    (h : (generate policy documents).result = .ok files) :
    (files.map (·.path)).Nodup ↔
      ∀ f ∈ documents, ∀ f' ∈ documents,
        fileStem f.business.name = fileStem f'.business.name →
        f.business.name = f'.business.name := by
  rw [map_path_eq h, List.nodup_map_iff_inj_on (generate_eq h).2]
  constructor
  · intro hinj f hf f' hf' hstem
    have hmem := mem_businessesOf.mpr ⟨f, hf, rfl⟩
    have hmem' := mem_businessesOf.mpr ⟨f', hf', rfl⟩
    exact hinj _ hmem _ hmem' (pathOf_inj.mpr hstem)
  · intro hnames a ha b hb hpath
    obtain ⟨f, hf, rfl⟩ := mem_businessesOf.mp ha
    obtain ⟨f', hf', rfl⟩ := mem_businessesOf.mp hb
    exact hnames f hf f' hf' (pathOf_inj.mp hpath)

/-- A description of the business that declares nothing. -/
def emptyFor (business : String) : Fetched where
  business := { name := business }
  api := { info := { title := "", version := "" } }

theorem paths_nodup_of_two :
    (generate {} [emptyFor "pets", emptyFor "shop"]).result =
        .ok [⟨"pets.ts", ""⟩, ⟨"shop.ts", ""⟩] ∧
      ["pets.ts", "shop.ts"].Nodup := by
  have h : (generate {} [emptyFor "pets", emptyFor "shop"]).result =
      .ok [⟨"pets.ts", ""⟩, ⟨"shop.ts", ""⟩] := by decide +kernel
  refine ⟨h, (paths_nodup_iff h).mpr ?_⟩
  intro f hf f' hf' hstem
  simp only [List.mem_cons, List.not_mem_nil, or_false] at hf hf'
  rcases hf with rfl | rfl <;> rcases hf' with rfl | rfl <;> revert hstem <;> decide +kernel

/-- A name with a slash and the one with a hyphen in its place share a path. -/
theorem paths_collide : ∃ documents files, (generate {} documents).result = .ok files ∧
    ¬ (files.map (·.path)).Nodup :=
  ⟨[emptyFor "pets/shop", emptyFor "pets-shop"], [⟨"pets-shop.ts", ""⟩, ⟨"pets-shop.ts", ""⟩],
    by decide +kernel, by decide⟩

end ApiTypes
