import ApiTypes.Files.Store
import ApiTypes.Proofs.Files.Paths
import ApiTypes.Proofs.Files.Trees

/-! # What writing each file comes to

Whether a generated file is written shows in the tree as it was before any of them: what one of them
does to the tree is of no matter for the others (`run_writeEach`).  At every way stands the last file
that was written there, and where none was it is as before (`get?_writeAll`).

Main definitions: `FileTree.canWrite`, `FileTree.writeAll`, `FileTree.writesAt`. -/

namespace ApiTypes

namespace FileTree

variable {t u : FileTree} {dir name : String} {way other : List String}

theorem leadsTo_join (t : FileTree) (dir : String) (h : Path.IsFileName name) :
    t.leadsTo (Path.join dir name) = t.leadsTo dir ++ [name] := by
  have hstart : t.start (Path.join dir name) = t.start dir := by
    unfold start
    rw [Path.isAbsolute_join h]
  unfold leadsTo
  rw [Path.names_join h, hstart, List.foldl_append, List.foldl_cons, List.foldl_nil, step,
    if_neg h.idle, if_neg h.above]

theorem locate_join (h : Path.IsFileName name) (hway : t.locate (Path.join dir name) = some way) :
    way = t.leadsTo dir ++ [name] := by
  rw [locate_eq hway, Path.segments_join h, ← leadsTo_join t dir h, ← Path.names_join h]
  rfl

theorem leadsTo_of_current (h : t.current = u.current) (p : String) : t.leadsTo p = u.leadsTo p := by
  unfold leadsTo start
  rw [h]

/-- Can the file be written below the directory? -/
def canWrite (t : FileTree) (dir : String) (f : GeneratedFile) : Bool :=
  (t.write (Path.join dir f.path) f.content).isSome

/-- The tree with the file written, where that can be done. -/
def writeOne (dir : String) (t : FileTree) (f : GeneratedFile) : FileTree :=
  (t.write (Path.join dir f.path) f.content).getD t

/-- The tree with each file written that can be. -/
def writeAll (t : FileTree) (dir : String) (files : List GeneratedFile) : FileTree :=
  files.foldl (writeOne dir) t

/-- Which files can be written, and which cannot. -/
def report (t : FileTree) (dir : String) (files : List GeneratedFile) : WriteReport where
  written := (files.filter (t.canWrite dir)).map fun f => Path.join dir f.path
  failed := (files.filter (!t.canWrite dir ·)).map fun f => Path.join dir f.path

theorem sameDirectories_writeOne (t : FileTree) (dir : String) (f : GeneratedFile) :
    SameDirectories (writeOne dir t f) t := by
  unfold writeOne
  cases h : t.write (Path.join dir f.path) f.content with
  | none => exact ⟨rfl, fun _ => rfl⟩
  | some u => exact (sameDirectories_of_write h).symm

theorem sameDirectories_writeAll (t : FileTree) (dir : String) (files : List GeneratedFile) :
    SameDirectories (t.writeAll dir files) t := by
  induction files generalizing t with
  | nil => exact ⟨rfl, fun _ => rfl⟩
  | cons f rest ih => exact (ih _).trans (sameDirectories_writeOne t dir f)

theorem SameDirectories.canWrite (h : SameDirectories t u) (dir : String) :
    t.canWrite dir = u.canWrite dir :=
  funext fun f => h.write_isSome _ f.content

/-- Is the file one that is written at the way? -/
def writesAt (t : FileTree) (dir : String) (way : List String) (f : GeneratedFile) : Bool :=
  t.canWrite dir f && t.leadsTo dir ++ [f.path] == way

theorem SameDirectories.writesAt (h : SameDirectories t u) (dir : String) (way : List String) :
    t.writesAt dir way = u.writesAt dir way := by
  funext f
  unfold FileTree.writesAt
  rw [h.canWrite, leadsTo_of_current h.current]

theorem get?_writeOne (t : FileTree) (dir : String) {f : GeneratedFile}
    (h : Path.IsFileName f.path) (way : List String) : (writeOne dir t f).get? way =
      if t.writesAt dir way f then some (.file (.text f.content)) else t.get? way := by
  unfold writeOne writesAt canWrite
  cases hwrite : t.write (Path.join dir f.path) f.content with
  | none => rfl
  | some u =>
      obtain ⟨place, hplace, hget⟩ := get?_of_write hwrite
      obtain rfl := locate_join h hplace
      rw [Option.getD_some, hget way, Option.isSome_some, Bool.true_and]
      by_cases hway : way = t.leadsTo dir ++ [f.path]
      · rw [if_pos hway, if_pos (beq_iff_eq.mpr hway.symm)]
      · rw [if_neg hway, if_neg fun heq => hway (eq_of_beq heq).symm]

/-- At a way stands the last of the files that are written there, and else what stood there. -/
theorem get?_writeAll (t : FileTree) (dir : String) {files : List GeneratedFile}
    (h : ∀ f ∈ files, Path.IsFileName f.path) (way : List String) :
    (t.writeAll dir files).get? way =
      ((files.filter (t.writesAt dir way)).getLast?.map fun f => .file (.text f.content)).or
        (t.get? way) := by
  induction files generalizing t with
  | nil => rfl
  | cons f rest ih =>
      have hlater := ih (writeOne dir t f) fun g hg => h g (List.mem_cons_of_mem _ hg)
      rw [(sameDirectories_writeOne t dir f).writesAt, get?_writeOne t dir (h f List.mem_cons_self)]
        at hlater
      refine hlater.trans ?_
      by_cases hf : t.writesAt dir way f = true
      · rw [if_pos hf, List.filter_cons_of_pos hf, List.getLast?_cons]
        cases (rest.filter (t.writesAt dir way)).getLast? <;> rfl
      · rw [if_neg hf, List.filter_cons_of_neg hf]

/-- Nothing changes but the files that are written below the directory. -/
theorem writeAll_frame (t : FileTree) (dir : String) {files : List GeneratedFile}
    (h : ∀ f ∈ files, Path.IsFileName f.path) (other : List String) :
    (t.writeAll dir files).get? other = t.get? other ∨
      ∃ f ∈ files, t.canWrite dir f = true ∧ other = t.leadsTo dir ++ [f.path] ∧
        (t.writeAll dir files).get? other = some (.file (.text f.content)) := by
  rw [get?_writeAll t dir h]
  cases hlast : (files.filter (t.writesAt dir other)).getLast? with
  | none => exact Or.inl rfl
  | some f =>
      obtain ⟨hf, hwrites⟩ := List.mem_filter.mp (List.mem_of_getLast? hlast)
      obtain ⟨hcan, hway⟩ := Bool.and_eq_true_iff.mp hwrites
      exact Or.inr ⟨f, hf, hcan, (eq_of_beq hway).symm, rfl⟩

theorem current_writeAll (t : FileTree) (dir : String) (files : List GeneratedFile) :
    (t.writeAll dir files).current = t.current :=
  (sameDirectories_writeAll t dir files).current

theorem AgreeBeside.writeOne (h : AgreeBeside way t u) (dir : String) (f : GeneratedFile) :
    AgreeBeside way (writeOne dir t f) (writeOne dir u f) := by
  have hsome := h.sameDirectories.write_isSome (Path.join dir f.path) f.content
  unfold FileTree.writeOne
  cases ht : t.write (Path.join dir f.path) f.content with
  | none =>
      rw [ht, Option.isSome_none] at hsome
      rw [Option.isNone_iff_eq_none.mp (Option.isSome_eq_false_iff.mp hsome.symm)]
      exact h
  | some t' =>
      rw [ht, Option.isSome_some] at hsome
      obtain ⟨u', hu⟩ := Option.isSome_iff_exists.mp hsome.symm
      rw [hu]
      exact h.write ht hu

/-- What differs in one file still does when the same files are written. -/
theorem AgreeBeside.writeAll (h : AgreeBeside way t u) (dir : String) (files : List GeneratedFile) :
    AgreeBeside way (t.writeAll dir files) (u.writeAll dir files) := by
  induction files generalizing t u with
  | nil => exact h
  | cons f rest ih => exact ih (h.writeOne dir f)

end FileTree

open FileTree

/-! ### Steps on a tree -/

section
variable (p text : String) (t : FileTree)

/-- A step on a tree and what comes after it. -/
theorem run_bind {α β : Type} (m : StateM FileTree α) (f : α → StateM FileTree β) :
    (m >>= f).run t = (f (m.run t).1).run (m.run t).2 :=
  rfl

theorem run_present : (Store.present p : StateM FileTree Bool).run t = (t.exists p, t) := rfl

theorem run_readText :
    (Store.readText p : StateM FileTree (Option String)).run t = (t.readText p, t) :=
  rfl

theorem run_makeDirs :
    (Store.makeDirs p : StateM FileTree Bool).run t = ((t.makeDirs p).2, (t.makeDirs p).1) :=
  rfl

theorem run_write : (Store.write p text : StateM FileTree Bool).run t =
    ((t.write p text).isSome, (t.write p text).getD t) := by
  dsimp only [Store.write, StateT.run]
  cases t.write p text <;> rfl

end

/-- Which files are written shows before any of them is. -/
theorem run_writeEach (dir : String) (files : List GeneratedFile) (t : FileTree) :
    ∃ notices, (writeEach dir files : StateM FileTree (WriteReport × List Notice)).run t =
      ((t.report dir files, notices), t.writeAll dir files) := by
  induction files generalizing t with
  | nil => exact ⟨[], rfl⟩
  | cons f rest ih =>
      obtain ⟨notices, hrest⟩ := ih (writeOne dir t f)
      have hreport : (writeOne dir t f).report dir rest = t.report dir rest := by
        unfold report
        rw [(sameDirectories_writeOne t dir f).canWrite]
      rw [hreport] at hrest
      have hwrite : (Store.write (Path.join dir f.path) f.content : StateM FileTree Bool).run t =
          (t.canWrite dir f, writeOne dir t f) :=
        run_write _ _ t
      rw [writeEach, run_bind, hwrite, run_bind, hrest]
      cases hf : t.canWrite dir f with
      | false =>
          refine ⟨.notWritten (Path.join dir f.path) :: notices, ?_⟩
          unfold report
          rw [List.filter_cons_of_neg (by simp [hf]), List.filter_cons_of_pos (by simp [hf])]
          rfl
      | true =>
          refine ⟨.wrote (Path.join dir f.path) :: notices, ?_⟩
          unfold report
          rw [List.filter_cons_of_pos hf, List.filter_cons_of_neg (by simp [hf])]
          rfl

theorem isSuccess_report (t : FileTree) (dir : String) (files : List GeneratedFile) :
    (t.report dir files).isSuccess = files.all (t.canWrite dir) := by
  unfold report WriteReport.isSuccess
  rw [Bool.eq_iff_iff, List.isEmpty_iff, List.map_eq_nil_iff, List.filter_eq_nil_iff, List.all_eq_true]
  simp

theorem run_writeFiles_of_made {dir : String} {t : FileTree} (h : (t.makeDirs dir).2 = true)
    (files : List GeneratedFile) :
    ∃ notices, (writeFiles dir files :
        StateM FileTree (Option (WriteReport × List Notice))).run t =
      (some ((t.makeDirs dir).1.report dir files, notices),
        (t.makeDirs dir).1.writeAll dir files) := by
  obtain ⟨notices, hrun⟩ := run_writeEach dir files (t.makeDirs dir).1
  refine ⟨notices, ?_⟩
  rw [writeFiles, run_bind, run_makeDirs, if_pos h, run_bind, hrun]
  rfl

theorem run_writeFiles_of_not_made {dir : String} {t : FileTree} (h : (t.makeDirs dir).2 = false)
    (files : List GeneratedFile) :
    (writeFiles dir files : StateM FileTree (Option (WriteReport × List Notice))).run t =
      (none, (t.makeDirs dir).1) := by
  rw [writeFiles, run_bind, run_makeDirs, if_neg (by simp [h])]
  rfl

end ApiTypes
