import ApiTypes.CommandLine
import ApiTypes.Proofs.Files.Writing
import ApiTypes.Proofs.Generation.Contents

/-! # Generating on a file tree

What `generate` comes to on a tree with the descriptions of its servers in files of the tree is a
function of the tree: the exit code, and the tree afterwards (`run_generate`). -/

namespace ApiTypes

namespace FileTree

/-- The configuration in the file at a path. -/
def config? (t : FileTree) (path : String) : Option Config := (t.readText path).bind Config.ofText?

/-- The description in the file at a path. -/
def api? (t : FileTree) (path : String) : Option Api :=
  (t.readText path).bind fun text => (Api.ofText text).toOption

/-- The descriptions in the files of servers, in the order of the servers. -/
def documents (t : FileTree) (servers : List Server) : List Fetched :=
  servers.filterMap fun s => (t.api? s.url).map (Fetched.ofServer s)

/-- The exit code of generating, and the tree afterwards. -/
def generated (t : FileTree) (path : String) : Nat × FileTree :=
  match t.config? path with
  | none => (1, t)
  | some c =>
    if c.servers.isEmpty then (0, t)
    else match (generate c.policy (t.documents c.servers)).result with
      | .error _ => (1, t)
      | .ok files =>
        let (made, done) := t.makeDirs c.outputPath
        if done then
          (if files.all (made.canWrite c.outputPath) then 0 else 1,
            made.writeAll c.outputPath files)
        else (1, made)

end FileTree

open FileTree

namespace CommandLine

variable {t : FileTree} {path : String}

/-! ### Reading -/

theorem run_loadConfig (path : String) (t : FileTree) :
    ∃ r, (loadConfig path : StateM FileTree (Except ConfigError Config)).run t = (r, t) ∧
      r.toOption = t.config? path := by
  unfold loadConfig config?
  rw [run_bind, run_present]
  cases hpresent : t.exists path with
  | false =>
      refine ⟨_, rfl, ?_⟩
      have hnone : t.readText path = none := by
        unfold readText
        unfold «exists» at hpresent
        rw [Option.isNone_iff_eq_none.mp (Option.isSome_eq_false_iff.mp hpresent)]
      rw [hnone]
      rfl
  | true =>
      rw [if_neg (by simp), run_bind, run_readText]
      cases t.readText path with
      | none => exact ⟨_, rfl, rfl⟩
      | some text =>
          dsimp only [Option.bind_some]
          cases Config.ofText? text with
          | none => exact ⟨_, rfl, rfl⟩
          | some c => exact ⟨_, rfl, rfl⟩

theorem run_fetch {s : Server} (hs : isUrl s.url = false) (t : FileTree) :
    ∃ r, (fetch s : StateM FileTree (Except FetchError Api)).run t = (r, t) ∧
      r.toOption = t.api? s.url := by
  unfold fetch api?
  rw [if_neg (by simp [hs]), run_bind, run_readText]
  cases t.readText s.url with
  | none => exact ⟨_, rfl, rfl⟩
  | some text =>
      dsimp only [Option.bind_some]
      cases Api.ofText text with
      | error e => exact ⟨_, rfl, rfl⟩
      | ok api => exact ⟨_, rfl, rfl⟩

theorem run_fetches {servers : List Server} (h : ∀ s ∈ servers, isUrl s.url = false)
    (t : FileTree) : ∃ results, (servers.mapM fun s => do return (s, ← fetch s) :
        StateM FileTree (List (Server × Except FetchError Api))).run t = (results, t) ∧
      results.filterMap (fun r => r.2.toOption.map (Fetched.ofServer r.1)) =
        t.documents servers := by
  induction servers with
  | nil => exact ⟨[], rfl, rfl⟩
  | cons s rest ih =>
      obtain ⟨r, hr, hapi⟩ := run_fetch (h s List.mem_cons_self) t
      obtain ⟨results, hresults, hdocuments⟩ := ih fun s' hs' => h s' (List.mem_cons_of_mem _ hs')
      refine ⟨(s, r) :: results, ?_, ?_⟩
      · have hfirst : (do return (s, ← fetch s) :
            StateM FileTree (Server × Except FetchError Api)).run t = ((s, r), t) := by
          rw [run_bind, hr]
          rfl
        rw [List.mapM_cons, run_bind, hfirst, run_bind, hresults]
        rfl
      · unfold documents at hdocuments ⊢
        rw [List.filterMap_cons, List.filterMap_cons, hdocuments, hapi]

theorem run_fetchedOf {ε : Type} : ∀ (results : List (Server × Except FetchError Api))
    (before : List Notice), ((fetchedOf results : Noting ε (List Fetched)).run before).1 =
      .ok (results.filterMap fun r => r.2.toOption.map (Fetched.ofServer r.1))
  | [], before => rfl
  | (s, r) :: rest, before => by
      unfold fetchedOf
      rw [List.filterMapM_cons, Noting.run_bind]
      cases r with
      | error e =>
          change ((fetchedOf rest : Noting ε (List Fetched)).run _).1 = _
          rw [run_fetchedOf rest]
          rfl
      | ok api =>
          change ((fetchedOf rest >>= fun fs => pure (Fetched.ofServer s api :: fs) :
            Noting ε (List Fetched)).run _).1 = _
          rw [Noting.run_bind, run_fetchedOf rest]
          rfl

/-! ### Generating -/

theorem run_generate (hlocal : ∀ c, t.config? path = some c → ∀ s ∈ c.servers, isUrl s.url = false) :
    ∃ o, (runGenerate path : StateM FileTree Outcome).run t = (o, (t.generated path).2) ∧
      o.code = (t.generated path).1 := by
  obtain ⟨r, hr, hconfig⟩ := run_loadConfig path t
  unfold runGenerate generated
  rw [run_bind, hr, ← hconfig]
  cases r with
  | error e => cases e <;> exact ⟨_, rfl, rfl⟩
  | ok c =>
      obtain ⟨results, hresults, hdocuments⟩ := run_fetches (hlocal c hconfig.symm) t
      have hfetched : (fetchedOf results : Noting Empty (List Fetched)).result =
          .ok (t.documents c.servers) :=
        (run_fetchedOf results []).trans (congrArg Except.ok hdocuments)
      dsimp only [Except.toOption]
      split
      · exact ⟨_, rfl, rfl⟩
      · rw [run_bind, hresults]
        simp only [hfetched]
        cases (generate c.policy (t.documents c.servers)).result with
        | error e => exact ⟨_, rfl, rfl⟩
        | ok files =>
            dsimp only
            rw [run_bind]
            cases hmade : (t.makeDirs c.outputPath).2 with
            | false =>
                rw [run_writeFiles_of_not_made hmade, if_neg (by simp)]
                exact ⟨_, rfl, rfl⟩
            | true =>
                obtain ⟨notices, hrun⟩ := run_writeFiles_of_made hmade files
                rw [hrun, if_pos rfl, ← isSuccess_report]
                dsimp only
                split
                · exact ⟨_, rfl, rfl⟩
                · exact ⟨_, rfl, rfl⟩

end CommandLine

end ApiTypes
