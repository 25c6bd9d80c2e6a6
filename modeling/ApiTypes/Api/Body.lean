import ApiTypes.Api.Schema
import ApiTypes.Table
import ApiTypes.Text.Search

/-! # Bodies

What a request or a response carries: a schema for each of its media types, or one schema for all.

Main definitions: `Content`, `Content.jsonSchema`, `RequestBody`, `Response`. -/

namespace ApiTypes

/-- The schemas of media types, in order; a media type may have none. -/
abbrev Content := Table (Option Schema)

namespace Content

/-- The media type of JSON. -/
def jsonType : String := "application/json"

/-- The media type that stands for all. -/
def anyType : String := "*/*"

/-- The schema of a media type. -/
def schemaFor (c : Content) (mediaType : String) : Option Schema := (c.get? mediaType).join

/-- Does the media type name JSON? -/
def namesJson (mediaType : String) : Bool :=
  Text.occurs ['j', 's', 'o', 'n'] mediaType.toList

/-- The schema of JSON content: that of JSON itself, else of the first media type that names JSON,
else of the one that stands for all. -/
def jsonSchema (c : Content) : Option Schema :=
  match c.schemaFor jsonType with
  | some s => some s
  | none =>
    match (c.entries.find? fun e => namesJson e.1).bind (·.2) with
    | some s => some s
    | none => c.schemaFor anyType

end Content

/-- The body of a request. -/
structure RequestBody where
  description : Option String := none
  content : Content := .empty
  required : Bool := false

/-- The schema of the request's fields: only that of JSON itself. -/
def RequestBody.jsonSchema (b : RequestBody) : Option Schema := b.content.schemaFor Content.jsonType

/-- A response; its schema may stand beside its content. -/
structure Response where
  description : Option String := none
  content : Content := .empty
  schema : Option Schema := none

/-- The schema of the response's fields: that of its content, else its own. -/
def Response.jsonSchema (r : Response) : Option Schema :=
  match r.content.jsonSchema with
  | some s => some s
  | none => r.schema

end ApiTypes
