import ApiTypes.Files.Store

/-! # The command line

What the arguments ask for, and what comes of it: an exit code, and what is printed.  Types are
generated unless another command is given; the option for the configuration file stands before or
after the command, once at each place, the one after it winning.

Main definitions: `Command`, `Command.ofArguments?`, `Outcome`, `loadConfig`, `runGenerate`,
`runInit`, `run`. -/

namespace ApiTypes.CommandLine

/-! ### Arguments -/

/-- What is asked for, with the path of the configuration file. -/
inductive Command where
  | generate (config : String)
  | init (config : String) (force : Bool)
  | completions (shell : String)
  | help
  | version
  deriving DecidableEq, Repr

/-- The options read so far at one place. -/
structure Options where
  config : Option String := none
  force : Bool := false

/-- A command that is named. -/
inductive Verb where
  | generate
  | init
  | completions
  deriving DecidableEq, Repr

/-- The command of a name. -/
def Verb.ofName? : String → Option Verb
  | "generate" => some .generate
  | "init" => some .init
  | "completions" => some .completions
  | _ => none

/-- May the argument be the value of an option?  It may not look like another option. -/
def isValue (arg : String) : Bool :=
  match arg.toList with
  | [] => false
  | ['-'] => true
  | c :: _ => c != '-'

/-- An argument that gives the configuration file: with the file in it, or in the next argument. -/
inductive ConfigArgument where
  | inside (path : String)
  | next

/-- The argument as one that gives the configuration file. -/
def configArgument? (arg : String) : Option ConfigArgument :=
  match arg.toList with
  | ['-', 'c'] => some .next
  | '-' :: 'c' :: '=' :: path => some (.inside (String.ofList path))
  | '-' :: 'c' :: path => some (.inside (String.ofList path))
  | cs =>
    if cs = "--config".toList then some .next
    else if "--config=".toList.isPrefixOf cs then some (.inside (String.ofList (cs.drop 9)))
    else none

/-- Does the argument start with the option of one letter?  An option without a value answers at
once, whatever letters follow its own. -/
def startsWithLetter (letter : Char) (arg : String) : Bool :=
  ['-', letter].isPrefixOf arg.toList

/-- Note the configuration file, once and not empty. -/
def Options.withConfig? (o : Options) (path : String) : Option Options :=
  if o.config.isSome || path.isEmpty then none else some { o with config := some path }

/-- The command with its options and, for `completions`, the name of a shell. -/
def Verb.command? (verb : Verb) (o : Options) (shell : Option String) : Option Command :=
  match verb with
  | .generate => some (.generate (o.config.getD ""))
  | .init => some (.init (o.config.getD "") o.force)
  | .completions => shell.map .completions

/-- The options after a command; `init` takes one more, and `completions` the name of a shell. -/
def afterVerb (verb : Verb) : Options → (shell : Option String) → List String → Option Command
  | o, shell, [] => verb.command? o shell
  | o, shell, arg :: rest =>
    match configArgument? arg with
    | some (.inside path) => (o.withConfig? path).bind fun o => afterVerb verb o shell rest
    | some .next =>
      match rest with
      | path :: rest =>
        if isValue path then (o.withConfig? path).bind fun o => afterVerb verb o shell rest
        else none
      | [] => none
    | none =>
      if startsWithLetter 'h' arg ∨ arg = "--help" then some .help
      else if arg = "--force" ∧ verb = .init ∧ o.force = false then
        afterVerb verb { o with force := true } shell rest
      else if arg = "--" ∧ rest = [] then verb.command? o shell
      else if verb = .completions ∧ shell = none ∧
          ["bash", "elvish", "fish", "powershell", "zsh"].contains arg = true then
        afterVerb verb o (some arg) rest
      else none

/-- The command with the configuration file where it names none itself. -/
def Command.withDefault (config : String) : Command → Command
  | .generate "" => .generate config
  | .init "" force => .init config force
  | c => c

/-- The command where none is named. -/
def Options.command (o : Options) : Option Command :=
  some (.generate (o.config.getD Config.fileName))

/-- The options before a command, and the command. -/
def beforeVerb : Options → List String → Option Command
  | o, [] => o.command
  | o, arg :: rest =>
    match configArgument? arg with
    | some (.inside path) => (o.withConfig? path).bind fun o => beforeVerb o rest
    | some .next =>
      match rest with
      | path :: rest =>
        if isValue path then (o.withConfig? path).bind fun o => beforeVerb o rest else none
      | [] => none
    | none =>
      if startsWithLetter 'h' arg ∨ arg = "--help" ∨ arg = "help" then some .help
      else if startsWithLetter 'V' arg ∨ arg = "--version" then some .version
      else if arg = "--" then if rest.isEmpty then o.command else none
      else match Verb.ofName? arg with
        | some verb =>
          (afterVerb verb {} none rest).map (·.withDefault (o.config.getD Config.fileName))
        | none => none

/-- What arguments ask for; none where they are not understood. -/
def Command.ofArguments? (args : List String) : Option Command := beforeVerb {} args

/-! ### Outcomes -/

/-- What comes of a command. -/
structure Outcome where
  code : Nat
  output : String := ""
  message : Option String := none
  notices : List Notice := []

/-- A command that failed. -/
def Outcome.failure (message : String) (notices : List Notice := []) : Outcome :=
  { code := 1, message := some ("Error: " ++ message), notices }

/-- A command that was carried out. -/
def Outcome.success (message : String) (notices : List Notice := []) : Outcome :=
  { code := 0, message := some message, notices }

/-- The first line of a message; none where it is empty. -/
def firstLine (message : String) : Option String :=
  let l := message.toList.takeWhile (· != '\n')
  if l.isEmpty then none else some (String.ofList l)

/-! ### Configuration -/

/-- Why there is no configuration. -/
inductive ConfigError where
  | notFound (path : String)
  | read (path : String)
  | parse (path : String)
  deriving DecidableEq, Repr

/-- The message of an error. -/
def ConfigError.message : ConfigError → String
  | .notFound path => "config file not found: " ++ path
  | .read path => "failed to read config " ++ path
  | .parse path => "failed to parse config " ++ path

variable {m : Type → Type} [Monad m] [Store m]

/-- The configuration in a file. -/
def loadConfig (path : String) : m (Except ConfigError Config) := do
  if !(← Store.present path) then return .error (.notFound path)
  else
    match ← Store.readText path with
    | none => return .error (.read path)
    | some s =>
      match Config.ofText? s with
      | none => return .error (.parse path)
      | some c => return .ok c

/-! ### Commands -/

/-- Is the description to be had over the network? -/
def isUrl (url : String) : Bool :=
  "http://".toList.isPrefixOf url.toList || "https://".toList.isPrefixOf url.toList

/-- The description of a server that names a file; nothing is had over the network. -/
def fetch (s : Server) : m (Except FetchError Api) := do
  if isUrl s.url then return .error (.transport s.url "no network access")
  else
    match ← Store.readText s.url with
    | none => return .error (.read s.url)
    | some text =>
      match Api.ofText text with
      | .ok api => return .ok api
      | .error e => return .error (.parse s.url e)

/-- The notices of fetching from servers, of which so many could be had. -/
def fetchNotices (servers : List Server) (count : Nat) (ofResults : List Notice) : List Notice :=
  servers.filterMap (fun s => if isUrl s.url then some (.requested s.url) else none) ++
    ofResults ++
    (if count < servers.length then [.notFetched (servers.length - count) servers.length] else [])

/-- Fetch every description, generate the types and write them. -/
def runGenerate (path : String) : m Outcome := do
  match ← loadConfig path with
  | .error (.notFound p) =>
    return .failure (p ++ " not found. Run `swagtype init` to create one.")
  | .error e => return .failure e.message
  | .ok config =>
    if config.servers.isEmpty then
      return .success "No servers configured. Add a `servers` section to your config."
    else
      let results ← config.servers.mapM fun s => do return (s, ← fetch s)
      let fetching : Noting Empty (List Fetched) := fetchedOf results
      let fetched := match fetching.result with
        | .ok l => l
        | .error e => nomatch e
      let notices := fetchNotices config.servers fetched.length fetching.notices
      let generation := generate config.policy fetched
      let notices := notices ++ generation.notices
      match generation.result with
      | .error e => return .failure e.message notices
      | .ok files =>
        match ← writeFiles config.outputPath files with
        | none =>
          return .failure ("failed to create output directory " ++ config.outputPath) notices
        | some (report, more) =>
          let notices := notices ++ more
          if report.isSuccess then
            return .success (s!"Generated {report.written.length} files in " ++ config.outputPath)
              notices
          else
            return .failure
              (s!"{report.failed.length} of {files.length} files failed to write") notices

/-- Write a configuration to start from.  Where there is a file already it has to be forced: nobody
is there to be asked. -/
def runInit (path : String) (force : Bool) : m Outcome := do
  if (← Store.present path) && !force then
    return .failure "failed to read overwrite confirmation"
  else if ← Store.write path Config.sample then return .success ("Created " ++ path)
  else return .failure ("failed to write " ++ path)

/-- The name of the program and its version. -/
def versionText : String := "swagtype 0.1.0\n"

/-- How the program is called. -/
def usage : String :=
  "Usage: swagtype [--config <CONFIG>] [generate | init [--force]]\n"

/-- Carry out what the arguments ask for. -/
def run (args : List String) : m Outcome :=
  match Command.ofArguments? args with
  | none => return { code := 2, message := some usage }
  | some .help => return { code := 0, output := usage }
  | some .version => return { code := 0, output := versionText }
  | some (.completions _) => return { code := 0 }
  | some (.generate path) => runGenerate path
  | some (.init path force) => runInit path force

end ApiTypes.CommandLine
