import ApiTypes.Reading.Text
import ApiTypes.TypeScript.Interface

/-! # Configuration

Which descriptions to fetch, what to call them, and where to write the types.

Main definitions: `Server`, `Config`, `Config.ofText?`, `Config.sample`. -/

namespace ApiTypes

/-- A description to fetch, and what overrides what it says about itself. -/
structure Server where
  url : String := ""
  name : Option String := none
  version : Option String := none
  authToken : Option String := none
  headers : Table String := .empty
  params : Table String := .empty
  suffix : Option String := none
  deriving DecidableEq

/-- The configuration of a project. -/
structure Config where
  outputPath : String := "src/types"
  requireRequest : Bool := false
  requireResponse : Bool := true
  servers : List Server := []
  deriving DecidableEq

namespace Config

/-- Which members the configuration makes required. -/
def policy (c : Config) : Policy := ⟨c.requireRequest, c.requireResponse⟩

/-- The name of the configuration file where none is given. -/
def fileName : String := ".swagtype.yaml"

/-- A configuration to start from. -/
def sample : String := "\n".intercalate [
  "# swagtype configuration",
  "output_path: src/types",
  "",
  "# Force every request field to be required (default: follow the schema).",
  "required_request_field: false",
  "# Force every response field to be required (default: true).",
  "required_response_field: true",
  "",
  "servers:",
  "  - url: https://petstore3.swagger.io/api/v3/openapi.json",
  "    # name: petstore          # defaults to the document title",
  "    # version: v3             # defaults to the document's major version",
  "    # auth_token: secret      # sent as a bearer token",
  "    # type_name_suffix: Pet   # appended to every generated type name",
  "    # headers:",
  "    #   X-Tenant: acme",
  "    # params:",
  "    #   group: public",
  ""]

end Config

namespace Reading

variable {π : Type} [Place π]

/-- A server. -/
def server (p : π) : Reading Server := do
  let fs ← Place.fields ["url", "name", "version", "auth_token", "headers", "params",
    "type_name_suffix"] 0 p
  return {
    url := ← Place.fieldOr fs "url" "" Place.text
    name := ← Place.optionField fs "name" Place.text
    version := ← Place.optionField fs "version" Place.text
    authToken := ← Place.optionField fs "auth_token" Place.text
    headers := ← tableField fs "headers" Place.text
    params := ← tableField fs "params" Place.text
    suffix := ← Place.optionField fs "type_name_suffix" Place.text }

/-- A configuration; what is missing has its default. -/
def config (p : π) : Reading Config := do
  let fs ← Place.fields ["output_path", "required_request_field", "required_response_field",
    "servers"] 0 p
  return {
    outputPath := ← Place.fieldOr fs "output_path" "src/types" Place.text
    requireRequest := ← Place.fieldOr fs "required_request_field" false Place.flag
    requireResponse := ← Place.fieldOr fs "required_response_field" true Place.flag
    servers := ← Place.listField fs "servers" server }

end Reading

/-- The configuration in a YAML text. -/
def Config.ofText? (s : String) : Option Config := Reading.yaml? Reading.config s

end ApiTypes
