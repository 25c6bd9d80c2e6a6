import ApiTypes.Api.Operation

/-! # Notices

What is noted on the way without being part of a result, each with its level and its message.

Main definitions: `Level`, `Notice`, `Notice.message`, `Noting`, `Noting.result`, `Noting.notices`. -/

namespace ApiTypes

/-- How serious a notice is. -/
inductive Level where
  | error
  | warn
  | info
  | debug
  deriving DecidableEq, Repr

/-- The word for a level. -/
def Level.name : Level → String
  | .error => "ERROR"
  | .warn => "WARN"
  | .info => "INFO"
  | .debug => "DEBUG"

/-- Something worth noting. -/
inductive Notice where
  | retryPass (pass still waiting : Nat)
  | unresolved (schema : String) (targets : List String)
  | parameterMissing (path : String)
  | bodyIgnored (method : Method) (url : String)
  | bodyUnresolved (method : Method) (url : String)
  | bodyMissing (path : String)
  | noSuccess (method : Method) (url : String)
  | noJson (method : Method) (url : String)
  | nothingToBind (schema : String)
  | rendered (business : String) (count : Nat)
  | resolved (business : String) (schemas operations : Nat)
  | requested (url : String)
  | fetched (url business version : String)
  | skipped (url reason : String)
  | notFetched (missing servers : Nat)
  | wrote (path : String)
  | notWritten (path : String)
  deriving DecidableEq, Repr

namespace Notice

/-- The level of a notice. -/
def level : Notice → Level
  | .skipped .. | .notWritten _ => .error
  | .unresolved .. | .parameterMissing _ | .bodyUnresolved .. | .bodyMissing _ | .noJson ..
  | .notFetched .. => .warn
  | .resolved .. | .fetched .. | .wrote _ => .info
  | .retryPass .. | .bodyIgnored .. | .noSuccess .. | .nothingToBind _ | .rendered ..
  | .requested _ => .debug

/-- The message of a notice. -/
def message : Notice → String
  | .retryPass pass still waiting =>
    s!"retry pass {pass}: {still} of {waiting} deferred schemas still pending"
  | .unresolved schema targets =>
    "schema " ++ schema ++ " still references unresolved " ++ ", ".intercalate targets
  | .parameterMissing path => "parameter reference " ++ path ++ " not found, skipping"
  | .bodyIgnored method url => method.name ++ " " ++ url ++ ": ignoring request body on GET"
  | .bodyUnresolved method url =>
    method.name ++ " " ++ url ++ ": request body schema could not be resolved"
  | .bodyMissing path => "request body reference " ++ path ++ " not found"
  | .noSuccess method url => method.name ++ " " ++ url ++ ": no 200/201/204 response documented"
  | .noJson method url => method.name ++ " " ++ url ++ ": success response has no JSON schema"
  | .nothingToBind schema => "schema " ++ schema ++ " has no properties to bind"
  | .rendered business count => s!"{business}: rendered {count} interfaces"
  | .resolved business schemas operations =>
    s!"'{business}': resolved {schemas} schemas and {operations} operations"
  | .requested url => "GET " ++ url
  | .fetched url business version => s!"fetched {url} as '{business}' ({version})"
  | .skipped url reason => "skipping " ++ url ++ ": " ++ reason
  | .notFetched missing servers => s!"{missing} of {servers} servers could not be fetched"
  | .wrote path => "wrote " ++ path
  | .notWritten path => "failed to write " ++ path

/-- The line of a notice. -/
def line (n : Notice) : String := n.level.name ++ " " ++ n.message

end Notice

/-- A computation that may fail and notes things on its way, also where it fails. -/
abbrev Noting (ε : Type) := ExceptT ε (StateM (List Notice))

namespace Noting

variable {ε α : Type}

/-- Note something. -/
def note (n : Notice) : Noting ε Unit := modify (· ++ [n])

/-- The result. -/
def result (m : Noting ε α) : Except ε α := (m.run []).1

/-- What was noted, in order. -/
def notices (m : Noting ε α) : List Notice := (m.run []).2

end Noting

end ApiTypes
