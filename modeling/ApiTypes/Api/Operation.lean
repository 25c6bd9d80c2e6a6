import ApiTypes.Api.Body
import ApiTypes.Api.Parameter

/-! # Operations

The operations of a path, one for each of its methods.

Main definitions: `Method`, `Operation`, `PathItem`, `PathItem.operations`. -/

namespace ApiTypes

/-- A method of HTTP. -/
inductive Method where
  | get
  | post
  | put
  | delete
  | patch
  | options
  | head
  | trace
  deriving DecidableEq, Repr

namespace Method

/-- Every method, in the order in which the operations of a path are listed. -/
def all : List Method := [.get, .post, .put, .delete, .patch, .options, .head, .trace]

/-- The method in lower case, as documents write it. -/
def key : Method → String
  | .get => "get"
  | .post => "post"
  | .put => "put"
  | .delete => "delete"
  | .patch => "patch"
  | .options => "options"
  | .head => "head"
  | .trace => "trace"

/-- The method in upper case, as requests write it. -/
def name : Method → String
  | .get => "GET"
  | .post => "POST"
  | .put => "PUT"
  | .delete => "DELETE"
  | .patch => "PATCH"
  | .options => "OPTIONS"
  | .head => "HEAD"
  | .trace => "TRACE"

end Method

/-- An operation as it is declared; its responses are named by their status. -/
structure Operation where
  operationId : Option String := none
  summary : Option String := none
  description : Option String := none
  tags : List String := []
  parameters : List (RefOr Parameter) := []
  requestBody : Option (RefOr RequestBody) := none
  responses : Table (RefOr Response) := .empty

/-- A path: parameters for all of its operations, and an operation for some of the methods. -/
structure PathItem where
  parameters : List (RefOr Parameter) := []
  operation : Method → Option Operation := fun _ => none

/-- The operations of a path with their methods, in the order of the methods. -/
def PathItem.operations (p : PathItem) : List (Method × Operation) :=
  Method.all.filterMap fun m => (p.operation m).map (m, ·)

end ApiTypes
