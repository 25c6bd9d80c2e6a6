import ApiTypes.Proofs.Files.Writing
import Mathlib.Data.List.Perm.Basic

/-! # What is written and what is reported

Each generated file is reported once, as written or as failed, in the order of the list.  A path that
is written holds the last text meant for it; a path that failed holds what it held before, and nothing
else changes either (`writeFiles_reports`).  What is left out of this are the directories on the way
to the one that is written to: where they are made, one may stand at a path that failed
(`detour_made`), though only if the way leads back.

Main definitions: `WriteReport.Divides`, `FileTree.SameOrMade`. -/

namespace ApiTypes

/-- Each of the paths is written or failed, in their order. -/
structure WriteReport.Divides (r : WriteReport) (paths : List String) : Prop where
  perm : (r.written ++ r.failed).Perm paths
  written : r.written.Sublist paths
  failed : r.failed.Sublist paths

theorem Path.join_inj {name name' : String} (h : IsFileName name) (h' : IsFileName name')
    (dir : String) : join dir name = join dir name' ↔ name = name' := by
  constructor
  · intro heq
    have hnames := congrArg names heq
    rw [names_join h, names_join h'] at hnames
    exact List.singleton_inj.mp (List.append_cancel_left hnames)
  · rintro rfl
    rfl

namespace FileTree

variable {t : FileTree} {dir : String} {files : List GeneratedFile} {f : GeneratedFile}

/-- At the way stands what stood there before, or there was nothing and a directory was made, which is
on the way to the path. -/
def SameOrMade (t after : FileTree) (dir : String) (way : List String) : Prop :=
  after.get? way = t.get? way ∨
    way ∈ through (t.start dir) (Path.names dir) ∧ t.get? way = none ∧
      after.get? way = some .directory

theorem divides_report (t : FileTree) (dir : String) (files : List GeneratedFile) :
    (t.report dir files).Divides (files.map fun f => Path.join dir f.path) where
  perm := by
    unfold report
    rw [← List.map_append]
    exact (List.filter_append_perm (t.canWrite dir) files).map _
  written := List.filter_sublist.map _
  failed := List.filter_sublist.map _

theorem canWrite_congr {g : GeneratedFile} (h : f.path = g.path) :
    t.canWrite dir f = t.canWrite dir g := by
  unfold canWrite
  rw [h]
  exact write_isSome_congr t _ _ _

/-- At the place of a file that cannot be written, nothing is written. -/
theorem filter_writesAt_of_not_canWrite (files : List GeneratedFile) (h : t.canWrite dir f = false) :
    files.filter (t.writesAt dir (t.leadsTo dir ++ [f.path])) = [] := by
  refine List.filter_eq_nil_iff.mpr fun g hg hwrites => ?_
  obtain ⟨hcan, hway⟩ := Bool.and_eq_true_iff.mp hwrites
  have heq : g.path = f.path := List.singleton_inj.mp (List.append_cancel_left (eq_of_beq hway))
  rw [canWrite_congr heq, h] at hcan
  cases hcan

section place
variable (hnames : ∀ g ∈ files, Path.IsFileName g.path) (hf : f ∈ files)
include hnames hf

/-- At the place of a file that can be written, all files with its path are written. -/
theorem filter_writesAt_of_canWrite (h : t.canWrite dir f = true) :
    files.filter (t.writesAt dir (t.leadsTo dir ++ [f.path])) =
      files.filter fun g => Path.join dir g.path = Path.join dir f.path := by
  refine List.filter_congr fun g hg => ?_
  rw [Bool.eq_iff_iff, decide_eq_true_iff, Path.join_inj (hnames g hg) (hnames f hf)]
  unfold writesAt
  rw [Bool.and_eq_true, beq_iff_eq, List.append_cancel_left_eq, List.singleton_inj]
  constructor
  · exact fun h => h.2
  · exact fun heq => ⟨(canWrite_congr heq).trans h, heq⟩

/-- Of the texts for one path the last one is there in the end. -/
theorem readText_writeAll (h : t.canWrite dir f = true) :
    ∃ last, (files.filter fun g => Path.join dir g.path = Path.join dir f.path).getLast? = some last ∧
      (t.writeAll dir files).readText (Path.join dir f.path) = some last.content := by
  obtain ⟨u, hu⟩ := Option.isSome_iff_exists.mp h
  obtain ⟨_, way, hway, _⟩ := write_eq_some_iff.mp hu
  obtain rfl := locate_join (hnames f hf) hway
  have hmem : f ∈ files.filter fun g => Path.join dir g.path = Path.join dir f.path :=
    List.mem_filter.mpr ⟨hf, decide_eq_true rfl⟩
  refine ⟨_, List.getLast?_eq_some_getLast (List.ne_nil_of_mem hmem), ?_⟩
  refine readText_of_entry (((sameDirectories_writeAll t dir files).locate _).trans hway) ?_
  rw [get?_writeAll t dir hnames, filter_writesAt_of_canWrite hnames hf h,
    List.getLast?_eq_some_getLast (List.ne_nil_of_mem hmem)]
  rfl

end place

/-- A file below a directory that is made on the way takes a step back on the way. -/
theorem not_mem_through (t : FileTree) (h : ".." ∉ Path.names dir) (name : String) :
    t.leadsTo dir ++ [name] ∉ through (t.start dir) (Path.names dir) := by
  intro hmem
  have hle := length_le_of_mem_through h hmem
  rw [List.length_append, List.length_singleton] at hle
  exact absurd hle (Nat.not_succ_le_self _)

end FileTree

open FileTree

/-- Where the directory is there or can be made, every file is reported once, in the order of the list.
A path that is written holds the text of the last file for it.  Everything else is as it was, a path
that failed included, unless it is a directory that was made on the way to the one that is written to;
for a path that failed, this takes a way that leads back. -/
theorem writeFiles_reports {t : FileTree} {dir : String} {files : List GeneratedFile}
    (hdir : (∃ way, t.locate dir = some way ∧ t.isDirectory way = true) ∨
      (t.makeDirs dir).2 = true)
    (hnames : ∀ f ∈ files, Path.IsFileName f.path) :
    ∃ report notices after, (writeFiles dir files :
        StateM FileTree (Option (WriteReport × List Notice))).run t =
          (some (report, notices), after) ∧
      report.Divides (files.map fun f => Path.join dir f.path) ∧
      (∀ p ∈ report.written, ∃ last,
        (files.filter fun f => Path.join dir f.path = p).getLast? = some last ∧
          after.readText p = some last.content) ∧
      (∀ p ∈ report.failed, t.SameOrMade after dir (t.leadsTo p) ∧
        (".." ∉ Path.names dir → after.get? (t.leadsTo p) = t.get? (t.leadsTo p))) ∧
      after.current = t.current ∧
      ∀ way, t.SameOrMade after dir way ∨ ∃ p ∈ report.written, way = t.leadsTo p := by
  obtain ⟨notices, hrun⟩ := run_writeFiles_of_made (makeDirs_iff.mp hdir) files
  have hcurrent := current_makeDirs t dir
  have hmade := makeDirs_frame t dir
  generalize (t.makeDirs dir).1 = made at hrun hcurrent hmade
  have hleads : ∀ {f}, f ∈ files →
      t.leadsTo (Path.join dir f.path) = made.leadsTo dir ++ [f.path] := by
    intro f hf
    rw [leadsTo_join t dir (hnames f hf), leadsTo_of_current hcurrent]
  have hsame : ∀ way, (made.writeAll dir files).get? way = made.get? way →
      t.SameOrMade (made.writeAll dir files) dir way := by
    intro way hway
    unfold SameOrMade
    rw [hway]
    exact hmade way
  refine ⟨_, notices, _, hrun, divides_report made dir files, ?_, ?_,
    (current_writeAll made dir files).trans hcurrent, ?_⟩
  · intro p hp
    obtain ⟨f, hf, rfl⟩ := List.mem_map.mp hp
    obtain ⟨hf, hcan⟩ := List.mem_filter.mp hf
    exact readText_writeAll hnames hf hcan
  · intro p hp
    obtain ⟨f, hf, rfl⟩ := List.mem_map.mp hp
    obtain ⟨hf, hcan⟩ := List.mem_filter.mp hf
    have hkept : (made.writeAll dir files).get? (t.leadsTo (Path.join dir f.path)) =
        made.get? (t.leadsTo (Path.join dir f.path)) := by
      rw [hleads hf, get?_writeAll made dir hnames,
        filter_writesAt_of_not_canWrite files (by simpa using hcan)]
      rfl
    refine ⟨hsame _ hkept, fun hback => ?_⟩
    rcases hsame _ hkept with heq | ⟨hthrough, _⟩
    · exact heq
    · rw [leadsTo_join t dir (hnames f hf)] at hthrough
      exact absurd hthrough (not_mem_through t hback f.path)
  · intro way
    rcases writeAll_frame made dir hnames way with heq | ⟨f, hf, hcan, hway, _⟩
    · exact Or.inl (hsame way heq)
    · refine Or.inr ⟨_, List.mem_map_of_mem (List.mem_filter.mpr ⟨hf, hcan⟩), ?_⟩
      rw [hleads hf, hway]

/-- A directory with a file in it, and a directory where a file is to be written. -/
def stall : FileTree where
  entries := [(["out"], .directory), (["out", "b.ts"], .directory),
    (["out", "a.ts"], .file (.text "old"))]

/-- Two texts for one file, and one for a file that cannot be written. -/
def stallFiles : List GeneratedFile := [⟨"a.ts", "1"⟩, ⟨"b.ts", "2"⟩, ⟨"a.ts", "3"⟩, ⟨"c.ts", "4"⟩]

/-- The second text stays, and so does the directory that is in the way. -/
theorem stall_reports :
    ((stall.makeDirs "out").2 = true ∧ ∀ f ∈ stallFiles, Path.IsFileName f.path) ∧
      ∃ report notices after, (writeFiles "out" stallFiles :
          StateM FileTree (Option (WriteReport × List Notice))).run stall =
            (some (report, notices), after) ∧
        report = ⟨["out/a.ts", "out/a.ts", "out/c.ts"], ["out/b.ts"]⟩ ∧
        after.readText "out/a.ts" = some "3" ∧ after.readText "out/c.ts" = some "4" ∧
        after.get? ["out", "b.ts"] = stall.get? ["out", "b.ts"] := by
  have hdir : (stall.makeDirs "out").2 = true := by decide +kernel
  have hnames : ∀ f ∈ stallFiles, Path.IsFileName f.path := by decide +kernel
  have hreport : ((writeFiles "out" stallFiles :
      StateM FileTree (Option (WriteReport × List Notice))).run stall).1.map Prod.fst =
        some ⟨["out/a.ts", "out/a.ts", "out/c.ts"], ["out/b.ts"]⟩ := by decide +kernel
  obtain ⟨report, notices, after, hrun, _, hwritten, hfailed, _⟩ :=
    writeFiles_reports (Or.inr hdir) hnames
  rw [hrun] at hreport
  obtain rfl := Option.some.inj hreport
  refine ⟨⟨hdir, hnames⟩, _, notices, after, hrun, rfl, ?_, ?_, ?_⟩
  · obtain ⟨last, hlast, htext⟩ := hwritten "out/a.ts" (by decide)
    obtain rfl : (⟨"a.ts", "3"⟩ : GeneratedFile) = last := Option.some.inj hlast
    exact htext
  · obtain ⟨last, hlast, htext⟩ := hwritten "out/c.ts" (by decide)
    obtain rfl : (⟨"c.ts", "4"⟩ : GeneratedFile) = last := Option.some.inj hlast
    exact htext
  · exact (hfailed "out/b.ts" (by decide)).2 (by decide +kernel)

/-- The way out and back again makes a directory where the file would be: its path has failed, and
where there was nothing there is that directory. -/
theorem detour_made :
    (({} : FileTree).makeDirs "out/x/..").2 = true ∧ Path.IsFileName "x" ∧
      ((writeFiles "out/x/.." [⟨"x", "1"⟩] :
        StateM FileTree (Option (WriteReport × List Notice))).run {}).1.map Prod.fst =
          some ⟨[], ["out/x/../x"]⟩ ∧
      ({} : FileTree).leadsTo "out/x/../x" = ["out", "x"] ∧
      ({} : FileTree).get? ["out", "x"] = none ∧
      ((writeFiles "out/x/.." [⟨"x", "1"⟩] :
        StateM FileTree (Option (WriteReport × List Notice))).run {}).2.get? ["out", "x"] =
          some .directory := by
  decide +kernel

end ApiTypes
