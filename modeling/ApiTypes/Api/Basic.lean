import ApiTypes.Api.Operation

/-! # Descriptions of APIs

A description of an API, in either of two dialects: version 3 keeps what operations share under
`components`, version 2 at the top.  What is looked up by name is found in both places.

Main definitions: `Info`, `Components`, `Api`, `Api.schemas`, `Api.findParameter`,
`Api.findResponse`, `Api.findRequestBody`, `Api.checkVersion`. -/

namespace ApiTypes

/-- What a description says about itself. -/
structure Info where
  title : String
  description : Option String := none
  version : String

/-- What operations share, in version 3. -/
structure Components where
  schemas : Table Schema := .empty
  responses : Table (RefOr Response) := .empty
  parameters : Table (RefOr Parameter) := .empty
  requestBodies : Table (RefOr RequestBody) := .empty

/-- The description of an API. -/
structure Api where
  openapi : Option String := none
  swagger : Option String := none
  info : Info
  paths : Table PathItem := .empty
  components : Components := {}
  definitions : Table Schema := .empty
  parameters : Table (RefOr Parameter) := .empty
  responses : Table (RefOr Response) := .empty

/-- Why a text is no description of an API. -/
inductive ReadError where
  | yaml
  | json
  | unsupportedVersion (version : String)
  deriving DecidableEq, Repr

/-- The message of an error. -/
def ReadError.message : ReadError → String
  | .yaml => "failed to parse YAML"
  | .json => "failed to parse JSON"
  | .unsupportedVersion v => "unsupported document version: " ++ v

namespace Api

/-- The named schemas: those of the components, where there are any. -/
def schemas (api : Api) : Table Schema :=
  if api.components.schemas.isEmpty then api.definitions else api.components.schemas

/-- The entry of the first table that declares the name. -/
def declared? {α : Type} (first second : Table α) (name : String) : Option α :=
  match first.get? name with
  | some a => some a
  | none => second.get? name

/-- A shared parameter; one that is itself a reference is not found. -/
def findParameter (api : Api) (name : String) : Option Parameter :=
  (declared? api.components.parameters api.parameters name).bind RefOr.item?

/-- A shared response; one that is itself a reference is not found. -/
def findResponse (api : Api) (name : String) : Option Response :=
  (declared? api.components.responses api.responses name).bind RefOr.item?

/-- A shared request body; one that is itself a reference is not found. -/
def findRequestBody (api : Api) (name : String) : Option RequestBody :=
  (api.components.requestBodies.get? name).bind RefOr.item?

/-- The description, where its version is supported: 3 as `openapi`, or 2 as `swagger` alone. -/
def checkVersion (api : Api) : Except ReadError Api :=
  match api.openapi, api.swagger with
  | some v, _ =>
    if ['3', '.'].isPrefixOf v.toList then .ok api else .error (.unsupportedVersion v)
  | none, some v =>
    if ['2', '.'].isPrefixOf v.toList then .ok api else .error (.unsupportedVersion v)
  | none, none => .error (.unsupportedVersion "<missing>")

end Api

end ApiTypes
