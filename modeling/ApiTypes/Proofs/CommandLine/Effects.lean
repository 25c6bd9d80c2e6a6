import ApiTypes.Proofs.CommandLine.Generating
import ApiTypes.Proofs.Generation.Paths

/-! # Exit codes and effects of generating

Generating on a tree, with every server in a file of it, succeeds exactly where the configuration can
be read and there is no server, or every description that can be read resolves and every file can be
written (`generated_code`).  It changes nothing but the directories on the way to the output and the
files in it (`generated_frame`), and nothing at all where it stops before it writes
(`generated_of_stopsEarly`).  A server whose description cannot be read might as well be left out
(`generated_tree`).  All of it together is said of the command in `generate_effects`.

Main definitions: `FileTree.Succeeds`, `FileTree.StopsEarly`, `FileTree.Stops`,
`FileTree.MayChange`, `ServerRemoval`. -/

namespace ApiTypes

namespace FileTree

variable {t u : FileTree} {path : String}

/-- Every description that can be read resolves, the directory is there or can be made, and every file
can be written below it. -/
structure Succeeds (t : FileTree) (c : Config) : Prop where
  resolves : ∀ f ∈ t.documents c.servers, f.Resolves
  directory : (∃ way, t.locate c.outputPath = some way ∧ t.isDirectory way = true) ∨
    (t.makeDirs c.outputPath).2 = true
  files : ∀ files, (generate c.policy (t.documents c.servers)).result = .ok files →
    ∀ f ∈ files, (t.makeDirs c.outputPath).1.canWrite c.outputPath f = true

/-- Generating stops before it writes: there is no configuration, or no server, or a description does
not resolve. -/
def StopsEarly (t : FileTree) (path : String) : Prop :=
  ∀ c, t.config? path = some c → c.servers = [] ∨ ∃ f ∈ t.documents c.servers, ¬ f.Resolves

theorem generate_ok_iff_resolves {policy : Policy} {documents : List Fetched} :
    (∃ files, (generate policy documents).result = .ok files) ↔ ∀ f ∈ documents, f.Resolves := by
  rw [generate_ok_iff]
  exact forall₂_congr fun f _ => exists_typesOf_iff

/-! ### One tree -/

/-- Where generating stops, with which exit code and which tree. -/
inductive Stops (t : FileTree) (path : String) : Nat × FileTree → Prop
  | noConfig (hconfig : t.config? path = none) : Stops t path (1, t)
  | noServers {c : Config} (hconfig : t.config? path = some c) (hservers : c.servers = []) :
      Stops t path (0, t)
  | unresolved {c : Config} {e : GenerateError} (hconfig : t.config? path = some c)
      (hservers : c.servers ≠ [])
      (hfiles : (generate c.policy (t.documents c.servers)).result = .error e) : Stops t path (1, t)
  | notMade {c : Config} {files : List GeneratedFile} (hconfig : t.config? path = some c)
      (hservers : c.servers ≠ [])
      (hfiles : (generate c.policy (t.documents c.servers)).result = .ok files)
      (hmade : (t.makeDirs c.outputPath).2 = false) : Stops t path (1, (t.makeDirs c.outputPath).1)
  | written {c : Config} {files : List GeneratedFile} (hconfig : t.config? path = some c)
      (hservers : c.servers ≠ [])
      (hfiles : (generate c.policy (t.documents c.servers)).result = .ok files)
      (hmade : (t.makeDirs c.outputPath).2 = true) :
      Stops t path
        (if files.all ((t.makeDirs c.outputPath).1.canWrite c.outputPath) then 0 else 1,
          (t.makeDirs c.outputPath).1.writeAll c.outputPath files)

theorem stops_generated (t : FileTree) (path : String) : Stops t path (t.generated path) := by
  unfold generated
  cases hconfig : t.config? path with
  | none => exact .noConfig hconfig
  | some c =>
      dsimp only
      split
      · next hservers => exact .noServers hconfig (List.isEmpty_iff.mp hservers)
      · next hservers =>
        have hservers : c.servers ≠ [] := fun h => hservers (List.isEmpty_iff.mpr h)
        cases hfiles : (generate c.policy (t.documents c.servers)).result with
        | error e => exact .unresolved hconfig hservers hfiles
        | ok files =>
            dsimp only
            cases hmade : (t.makeDirs c.outputPath).2 with
            | false => exact .notMade hconfig hservers hfiles hmade
            | true => exact .written hconfig hservers hfiles hmade

theorem generated_code (t : FileTree) (path : String) :
    ((t.generated path).1 = 0 ∨ (t.generated path).1 = 1) ∧
      ((t.generated path).1 = 0 ↔
        ∃ c, t.config? path = some c ∧ (c.servers = [] ∨ t.Succeeds c)) := by
  have hstops := stops_generated t path
  generalize t.generated path = r at hstops ⊢
  cases hstops with
  | noConfig hconfig => simp [hconfig]
  | noServers hconfig hservers => simp [hconfig, hservers]
  | @unresolved c e hconfig hservers hfiles =>
      have hfails : ¬ t.Succeeds c := by
        intro h
        obtain ⟨files, hok⟩ := generate_ok_iff_resolves.mpr h.resolves
        rw [hfiles] at hok
        cases hok
      simp [hconfig, hservers, hfails]
  | @notMade c files hconfig hservers hfiles hmade =>
      have hfails : ¬ t.Succeeds c := by
        intro h
        rw [makeDirs_iff.mp h.directory] at hmade
        cases hmade
      simp [hconfig, hservers, hfails]
  | @written c files hconfig hservers hfiles hmade =>
      have hsucceeds : t.Succeeds c ↔
          files.all ((t.makeDirs c.outputPath).1.canWrite c.outputPath) = true := by
        rw [List.all_eq_true]
        constructor
        · exact fun h => h.files files hfiles
        · intro h
          refine ⟨generate_ok_iff_resolves.mp ⟨files, hfiles⟩, Or.inr hmade, ?_⟩
          intro files' hfiles'
          obtain rfl := Except.ok.inj (hfiles.symm.trans hfiles')
          exact h
      dsimp only
      split
      · next hall => simp [hconfig, hsucceeds.mpr hall]
      · next hall => simp [hconfig, hservers, mt hsucceeds.mp hall]

/-- A run that stops before it writes leaves the tree as it is. -/
theorem generated_of_stopsEarly (h : t.StopsEarly path) : (t.generated path).2 = t := by
  have hstops := stops_generated t path
  have hcontinues : ∀ c files, t.config? path = some c → c.servers ≠ [] →
      (generate c.policy (t.documents c.servers)).result = .ok files → False := by
    intro c files hconfig hservers hfiles
    rcases h c hconfig with hnone | ⟨f, hf, hunresolved⟩
    · exact hservers hnone
    · exact hunresolved (generate_ok_iff_resolves.mp ⟨files, hfiles⟩ f hf)
  generalize t.generated path = r at hstops ⊢
  cases hstops with
  | noConfig => rfl
  | noServers => rfl
  | unresolved => rfl
  | notMade hconfig hservers hfiles => exact (hcontinues _ _ hconfig hservers hfiles).elim
  | written hconfig hservers hfiles => exact (hcontinues _ _ hconfig hservers hfiles).elim

/-- What generating may change: a directory is made on the way to the output, where there was nothing,
or a file of types is written in the output. -/
def MayChange (t : FileTree) (path : String) (way : List String) (after : Option Entry) : Prop :=
  ∃ c, t.config? path = some c ∧
    (way ∈ through (t.start c.outputPath) (Path.names c.outputPath) ∧ t.get? way = none ∧
        after = some .directory ∨
      ∃ files, (generate c.policy (t.documents c.servers)).result = .ok files ∧
        ∃ f ∈ files, way = t.leadsTo c.outputPath ++ [f.path] ∧
          after = some (.file (.text f.content)))

theorem generated_frame (t : FileTree) (path : String) :
    (t.generated path).2.current = t.current ∧
      ∀ way, (t.generated path).2.get? way = t.get? way ∨
        t.MayChange path way ((t.generated path).2.get? way) := by
  have hstops := stops_generated t path
  generalize t.generated path = r at hstops ⊢
  cases hstops with
  | noConfig => exact ⟨rfl, fun _ => Or.inl rfl⟩
  | noServers => exact ⟨rfl, fun _ => Or.inl rfl⟩
  | unresolved => exact ⟨rfl, fun _ => Or.inl rfl⟩
  | @notMade c files hconfig =>
      refine ⟨current_makeDirs t c.outputPath, fun way => ?_⟩
      exact (makeDirs_frame t c.outputPath way).imp_right fun h => ⟨c, hconfig, Or.inl h⟩
  | @written c files hconfig _ hfiles =>
      have hcurrent := current_makeDirs t c.outputPath
      refine ⟨(current_writeAll _ c.outputPath files).trans hcurrent, fun way => ?_⟩
      have hnames : ∀ f ∈ files, Path.IsFileName f.path := by
        intro f hf
        rw [(generate_eq hfiles).1] at hf
        obtain ⟨business, _, rfl⟩ := List.mem_map.mp hf
        exact isFileName_pathOf business
      rcases writeAll_frame (t.makeDirs c.outputPath).1 c.outputPath hnames way with
        hsame | ⟨f, hf, _, hway, hget⟩
      · rw [hsame]
        exact (makeDirs_frame t c.outputPath way).imp_right fun h => ⟨c, hconfig, Or.inl h⟩
      · rw [leadsTo_of_current hcurrent] at hway
        exact Or.inr ⟨c, hconfig, Or.inr ⟨files, hfiles, f, hf, hway, hget⟩⟩

theorem AgreeBeside.readText {way : List String} {p : String} (h : AgreeBeside way t u)
    (hp : t.locate p ≠ some way) : u.readText p = t.readText p := by
  have hentry : (u.locate p).bind u.get? = (t.locate p).bind t.get? := by
    rw [← h.sameDirectories.locate]
    cases hlocated : t.locate p with
    | none => rfl
    | some w => exact (h.others w fun heq => hp (hlocated.trans (congrArg some heq))).symm
  unfold FileTree.readText
  rw [hentry]

end FileTree

open FileTree

/-! ### A server left out -/

/-- A tree with a configuration from which a server is left out: no description can be read from that
server, another server is left, and a description that is read from the file of the configuration
itself says what it said. -/
structure ServerRemoval (t : FileTree) (path : String) where
  way : List String
  text : String
  config : Config
  before : List Server
  server : Server
  after : List Server
  newText : String
  located : t.locate path = some way
  entry : t.get? way = some (.file (.text text))
  read : Config.ofText? text = some config
  servers : config.servers = before ++ server :: after
  unreadable : t.api? server.url = none
  others : before ++ after ≠ []
  newRead : Config.ofText? newText = some { config with servers := before ++ after }
  description : ∀ s ∈ before ++ after, t.locate s.url = some way →
    (Api.ofText newText).toOption = (Api.ofText text).toOption

namespace ServerRemoval

variable {t : FileTree} {path : String} (r : ServerRemoval t path)

/-- The tree with the new text of the configuration. -/
def tree : FileTree := t.set r.way (.file (.text r.newText))

/-- The configuration without the server. -/
def newConfig : Config := { r.config with servers := r.before ++ r.after }

theorem agree : AgreeBeside r.way t r.tree := agreeBeside_set r.entry

theorem get?_tree : r.tree.get? r.way = some (.file (.text r.newText)) :=
  (get?_set t (ne_nil_of_free (free_of_file r.entry)) _ r.way).trans (if_pos rfl)

theorem config?_eq : t.config? path = some r.config := by
  unfold config?
  rw [readText_of_entry r.located r.entry]
  exact r.read

theorem config?_tree : r.tree.config? path = some r.newConfig := by
  unfold config?
  rw [readText_of_entry (r.agree.sameDirectories.locate path ▸ r.located) r.get?_tree]
  exact r.newRead

theorem api?_tree {s : Server} (hs : s ∈ r.before ++ r.after) :
    r.tree.api? s.url = t.api? s.url := by
  unfold api?
  by_cases hway : t.locate s.url = some r.way
  · have hlocated := r.agree.sameDirectories.locate s.url ▸ hway
    rw [readText_of_entry hway r.entry, readText_of_entry hlocated r.get?_tree]
    exact r.description s hs hway
  · rw [r.agree.readText hway]

/-- The server has no description to be left out. -/
theorem documents_tree : r.tree.documents r.newConfig.servers = t.documents r.config.servers := by
  have hsame : r.tree.documents r.newConfig.servers = t.documents (r.before ++ r.after) := by
    apply List.filterMap_congr
    intro s hs
    rw [r.api?_tree hs]
  rw [hsame, r.servers]
  unfold documents
  rw [List.filterMap_append, List.filterMap_append, List.filterMap_cons, r.unreadable]
  rfl

/-- Leaving the server out changes neither the exit code nor what is written. -/
theorem generated_tree : (r.tree.generated path).1 = (t.generated path).1 ∧
    AgreeBeside r.way (t.generated path).2 (r.tree.generated path).2 := by
  have hservers : ¬ r.config.servers.isEmpty = true := by simp [r.servers]
  have hnewServers : ¬ r.newConfig.servers.isEmpty = true := fun h => r.others (List.isEmpty_iff.mp h)
  have hpolicy : r.newConfig.policy = r.config.policy := rfl
  have houtput : r.newConfig.outputPath = r.config.outputPath := rfl
  unfold generated
  rw [r.config?_eq, r.config?_tree]
  dsimp only
  rw [if_neg hservers, if_neg hnewServers, r.documents_tree, hpolicy, houtput]
  cases (generate r.config.policy (t.documents r.config.servers)).result with
  | error e => exact ⟨rfl, r.agree⟩
  | ok files =>
      obtain ⟨hflag, hmade⟩ := r.agree.makeDirs r.config.outputPath
      dsimp only
      rw [← hflag]
      split
      · rw [hmade.sameDirectories.canWrite]
        exact ⟨rfl, hmade.writeAll _ files⟩
      · exact ⟨rfl, hmade⟩

end ServerRemoval

/-! ### The command -/

namespace CommandLine

theorem run_of_generate {args : List String} {path : String}
    (hargs : Command.ofArguments? args = some (.generate path)) :
    (run args : StateM FileTree Outcome) = runGenerate path := by
  unfold run
  rw [hargs]

/-- Generating with every server in a file ends with exit code 0 or 1, and with 0 exactly where the
configuration is read and there is no server, or all that can be read resolves and all files can be
written.  Where it stops before it writes the tree is as it was, and else it has new directories on
the way to the output, and the files written there, alone.  Leaving out a server whose description
cannot be read changes neither the exit code nor the tree, but for the configuration itself. -/
theorem generate_effects {args : List String} {path : String} {t : FileTree}
    (hargs : Command.ofArguments? args = some (.generate path))
    (hlocal : ∀ c, t.config? path = some c → ∀ s ∈ c.servers, isUrl s.url = false) :
    ∃ o after, (run args : StateM FileTree Outcome).run t = (o, after) ∧
      (o.code = 0 ∨ o.code = 1) ∧
      (o.code = 0 ↔ ∃ c, t.config? path = some c ∧ (c.servers = [] ∨ t.Succeeds c)) ∧
      (t.StopsEarly path → after = t) ∧
      (after.current = t.current ∧
        ∀ way, after.get? way = t.get? way ∨ t.MayChange path way (after.get? way)) ∧
      ∀ r : ServerRemoval t path, ∃ o' after',
        (run args : StateM FileTree Outcome).run r.tree = (o', after') ∧ o'.code = o.code ∧
          ∀ way, way ≠ r.way → after'.get? way = after.get? way := by
  rw [run_of_generate hargs]
  obtain ⟨o, hrun, hcode⟩ := run_generate hlocal
  obtain ⟨hcodes, hsuccess⟩ := generated_code t path
  refine ⟨o, _, hrun, hcode ▸ hcodes, hcode ▸ hsuccess, generated_of_stopsEarly,
    generated_frame t path, fun r => ?_⟩
  have hnewLocal : ∀ c, r.tree.config? path = some c → ∀ s ∈ c.servers, isUrl s.url = false := by
    intro c hc s hs
    obtain rfl := Option.some.inj (r.config?_tree.symm.trans hc)
    refine hlocal r.config r.config?_eq s ?_
    rw [r.servers]
    rcases List.mem_append.mp hs with hs | hs
    · exact List.mem_append_left _ hs
    · exact List.mem_append_right _ (List.mem_cons_of_mem _ hs)
  obtain ⟨o', hrun', hcode'⟩ := run_generate hnewLocal
  obtain ⟨hsame, hagree⟩ := r.generated_tree
  exact ⟨o', _, hrun', hcode'.trans (hsame.trans hcode.symm),
    fun way hway => (hagree.others way hway).symm⟩

/-- A configuration with two servers. -/
def lostAndPets : String :=
  "output_path: out/types\nservers:\n  - url: lost.json\n  - url: pets.json\n"

/-- Of the two servers one has a description. -/
def petsTree : FileTree where
  entries := [
    ([Config.fileName], .file (.text lostAndPets)),
    (["pets.json"], .file (.text (
      "\x7b\"swagger\": \"2.0\", \"info\": \x7b\"title\": \"Pets\", \"version\": \"1\"\x7d, " ++
      "\"paths\": \x7b\"/pets\": \x7b\"get\": \x7b\"responses\": \x7b\"200\": \x7b\"schema\": " ++
      "\x7b\"properties\": \x7b\"name\": \x7b\"type\": \"string\"\x7d\x7d\x7d\x7d\x7d\x7d\x7d\x7d\x7d")))]

/-- The server without a description, to be left out. -/
def lostRemoval : ServerRemoval petsTree Config.fileName where
  way := [Config.fileName]
  text := lostAndPets
  config := { outputPath := "out/types", servers := [{ url := "lost.json" }, { url := "pets.json" }] }
  before := []
  server := { url := "lost.json" }
  after := [{ url := "pets.json" }]
  newText := "output_path: out/types\nservers:\n  - url: pets.json\n"
  located := by decide +kernel
  entry := by decide +kernel
  read := by decide +kernel
  servers := rfl
  unreadable := rfl
  others := by decide
  newRead := by decide +kernel
  description := by
    intro s hs hway
    obtain rfl := List.mem_singleton.mp hs
    exact absurd hway (by decide +kernel)

/-- The pets are written with the lost server and without it. -/
theorem petsTree_effects :
    Command.ofArguments? ["generate"] = some (.generate Config.fileName) ∧
      (∀ c, petsTree.config? Config.fileName = some c → ∀ s ∈ c.servers, isUrl s.url = false) ∧
      ∃ o after, (run ["generate"] : StateM FileTree Outcome).run petsTree = (o, after) ∧
        o.code = 0 ∧ (after.get? ["out", "types", "Pets.ts"]).isSome ∧
        petsTree.MayChange Config.fileName ["out", "types", "Pets.ts"]
          (after.get? ["out", "types", "Pets.ts"]) ∧
        ∃ o' after', (run ["generate"] : StateM FileTree Outcome).run lostRemoval.tree = (o', after') ∧
          o'.code = 0 ∧ ∀ way, way ≠ [Config.fileName] → after'.get? way = after.get? way := by
  have hargs : Command.ofArguments? ["generate"] = some (.generate Config.fileName) := by
    decide +kernel
  have hlocal : ∀ c, petsTree.config? Config.fileName = some c →
      ∀ s ∈ c.servers, isUrl s.url = false := by
    intro c hc
    obtain rfl := Option.some.inj (lostRemoval.config?_eq.symm.trans hc)
    decide +kernel
  have hsucceeds : (((run ["generate"] : StateM FileTree Outcome).run petsTree).1.code = 0 ∧
      (((run ["generate"] : StateM FileTree Outcome).run petsTree).2.get?
        ["out", "types", "Pets.ts"]).isSome) ∧
      petsTree.get? ["out", "types", "Pets.ts"] = none := by
    decide +kernel
  obtain ⟨o, after, hrun, _, _, _, ⟨_, hframe⟩, hremoval⟩ := generate_effects hargs hlocal
  rw [hrun] at hsucceeds
  obtain ⟨⟨hcode, hwritten⟩, hfree⟩ := hsucceeds
  obtain ⟨o', after', hrun', hcode', hsame⟩ := hremoval lostRemoval
  refine ⟨hargs, hlocal, o, after, hrun, hcode, hwritten, ?_, o', after', hrun',
    hcode'.trans hcode, hsame⟩
  rcases hframe ["out", "types", "Pets.ts"] with hget | hchange
  · rw [hget, hfree] at hwritten
    cases hwritten
  · exact hchange

end CommandLine

end ApiTypes
