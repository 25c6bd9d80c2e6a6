import ApiTypes.Api.Basic
import ApiTypes.Literal.Text
import ApiTypes.Reading.Schema

/-! # Reading descriptions of APIs

The parts of a description, read from places of any format.  The fields of each structure are listed
in the order in which they are read by position.

Main definitions: `parameter`, `response`, `requestBody`, `operation`, `pathItem`, `api`. -/

namespace ApiTypes.Reading

variable {π α : Type} [Place π]

/-- A mapping from names as a table. -/
def table (read : π → Reading α) (p : π) : Reading (Table α) :=
  Table.ofList <$> Place.entriesOf read p

/-- A table that is empty where its field is missing. -/
def tableField (fs : Fields π) (name : String) (read : π → Reading α) : Reading (Table α) :=
  Place.fieldOr fs name .empty (table read)

/-- A field that is a text, or the compact text of any other value. -/
def valueText (p : π) : Reading String := do
  match ← Place.literal p with
  | .text s => pure s
  | v => pure v.toText

/-! ### Parameters -/

/-- The words of the locations. -/
def locationWords : List String := ["query", "header", "path", "cookie", "body", "formData"]

/-- A location. -/
def location (p : π) : Reading Location := do
  match ← Place.keyword locationWords p with
  | some 0 => pure .query
  | some 1 => pure .header
  | some 2 => pure .path
  | some 3 => pure .cookie
  | some 4 => pure .body
  | some 5 => pure .formData
  | _ => failure

/-- A parameter; name and location have to be there. -/
def parameter (p : π) : Reading Parameter := do
  let fs ← Place.fields ["name", "in", "description", "required", "schema", "type", "items", "enum",
    "default"] 2 p
  pure {
    name := ← Place.field fs "name" Place.text
    location := ← Place.field fs "in" location
    description := ← Place.optionField fs "description" Place.text
    required := ← Place.fieldOr fs "required" false Place.flag
    schema := ← Place.optionField fs "schema" schema
    type := ← Place.optionField fs "type" typeSet
    items := ← Place.optionField fs "items" schema
    enum := ← Place.listField fs "enum" Place.literal
    default := ← Place.optionField fs "default" Place.literal }

/-! ### Bodies -/

/-- The schema of a media type; by position it has to be there. -/
def mediaType (p : π) : Reading (Option Schema) := do
  let fs ← Place.fields ["schema"] 1 p
  Place.optionField fs "schema" schema

/-- The schemas of media types. -/
def content (p : π) : Reading Content := table mediaType p

/-- A request body. -/
def requestBody (p : π) : Reading RequestBody := do
  let fs ← Place.fields ["description", "content", "required"] 0 p
  pure {
    description := ← Place.optionField fs "description" Place.text
    content := ← Place.fieldOr fs "content" .empty content
    required := ← Place.fieldOr fs "required" false Place.flag }

/-- A response. -/
def response (p : π) : Reading Response := do
  let fs ← Place.fields ["description", "content", "schema"] 0 p
  pure {
    description := ← Place.optionField fs "description" Place.text
    content := ← Place.fieldOr fs "content" .empty content
    schema := ← Place.optionField fs "schema" schema }

/-! ### Operations -/

/-- An operation. -/
def operation (p : π) : Reading Operation := do
  let fs ← Place.fields ["operationId", "summary", "description", "tags", "parameters",
    "requestBody", "responses"] 0 p
  pure {
    operationId := ← Place.optionField fs "operationId" Place.text
    summary := ← Place.optionField fs "summary" Place.text
    description := ← Place.optionField fs "description" Place.text
    tags := ← Place.listField fs "tags" Place.text
    parameters := ← Place.listField fs "parameters" (refOr parameter)
    requestBody := ← Place.optionField fs "requestBody" (refOr requestBody)
    responses := ← tableField fs "responses" (refOr response) }

/-- A path with the operations of its methods. -/
def pathItem (p : π) : Reading PathItem := do
  let fs ← Place.fields ("parameters" :: Method.all.map Method.key) 0 p
  let operations ← Method.all.mapM fun m => (m, ·) <$> Place.optionField fs m.key operation
  pure {
    parameters := ← Place.listField fs "parameters" (refOr parameter)
    operation := fun m => (operations.lookup m).join }

/-! ### Descriptions -/

/-- What a description says about itself; title and version have to be there. -/
def info (p : π) : Reading Info := do
  let fs ← Place.fields ["title", "description", "version"] 3 p
  pure {
    title := ← Place.field fs "title" Place.text
    description := ← Place.optionField fs "description" Place.text
    version := ← Place.field fs "version" valueText }

/-- What operations share. -/
def components (p : π) : Reading Components := do
  let fs ← Place.fields ["schemas", "responses", "parameters", "requestBodies"] 0 p
  pure {
    schemas := ← tableField fs "schemas" schema
    responses := ← tableField fs "responses" (refOr response)
    parameters := ← tableField fs "parameters" (refOr parameter)
    requestBodies := ← tableField fs "requestBodies" (refOr requestBody) }

/-- A description; what it says about itself has to be there. -/
def api (p : π) : Reading Api := do
  let fs ← Place.fields ["openapi", "swagger", "info", "paths", "components", "definitions",
    "parameters", "responses"] 3 p
  pure {
    openapi := ← Place.fieldOr fs "openapi" none fun p => some <$> valueText p
    swagger := ← Place.fieldOr fs "swagger" none fun p => some <$> valueText p
    info := ← Place.field fs "info" info
    paths := ← tableField fs "paths" pathItem
    components := ← Place.fieldOr fs "components" {} components
    definitions := ← tableField fs "definitions" schema
    parameters := ← tableField fs "parameters" (refOr parameter)
    responses := ← tableField fs "responses" (refOr response) }

end ApiTypes.Reading
