import ApiTypes.Api.Basic
import ApiTypes.Notice
import ApiTypes.Resolution.Expansion
import ApiTypes.TypeName

/-! # Binding operations

Every operation of a description is bound to the fields of its parameters, its request body and its
first documented success, and to the names of the types made of them.  A body that is a reference,
whose first part is one, or whose items are one, has the fields of the schema referred to; any other
has the fields that it resolves to.

Main definitions: `BoundOperation`, `collectParameters`, `bindParameter`, `namedFields`,
`bindResponse`, `bindOperation`, `bindOperations`. -/

namespace ApiTypes

/-- An operation with the fields of its types.  A type without fields has no name. -/
structure BoundOperation where
  url : String
  method : Method
  summary : String
  tag : String := "default"
  requestTypeName : Option String := none
  responseTypeName : Option String := none
  parameters : Option (List Field) := none
  requestBody : Option (List Field) := none
  responses : Option (List Field) := none

/-- The fields of the request: parameters, then those of the body. -/
def BoundOperation.requestFields (o : BoundOperation) : List Field :=
  o.parameters.getD [] ++ o.requestBody.getD []

/-- The fields of the response. -/
def BoundOperation.responseFields (o : BoundOperation) : List Field := o.responses.getD []

namespace Binding

/-- The list, where it has anything in it. -/
def nonEmpty {α : Type} (l : List α) : Option (List α) := if l.isEmpty then none else some l

/-- The first value, where there is one, else the second. -/
def orElse {α : Type} : Option α → Option α → Option α
  | some a, _ => some a
  | none, b => b

/-! ### Parameters -/

/-- The parameter itself, or the shared one that is referred to; none where there is none. -/
def lookupParameter (api : Api) : RefOr Parameter → Noting InvalidRef (Option Parameter)
  | .item p => return some p
  | .ref path => do
    let name ← refName path
    match api.findParameter name with
    | some p => return some p
    | none =>
      Noting.note (.parameterMissing path)
      return none

/-- Have two parameters the same name and location? -/
def sameParameter (p q : Parameter) : Bool := p.name == q.name && p.location == q.location

/-- The parameters of a path, then those of an operation, each of which replaces those of its name
and location before it. -/
def collectParameters (api : Api) (ofPath ofOperation : List (RefOr Parameter)) :
    Noting InvalidRef (List Parameter) := do
  let inherited ← ofPath.mapM (lookupParameter api)
  ofOperation.foldlM (fun kept r => do
    match ← lookupParameter api r with
    | some p => return kept.filter (!sameParameter · p) ++ [p]
    | none => return kept) (inherited.filterMap id)

/-- The origin of a parameter's field. -/
def originOf : Location → Origin
  | .query => .query
  | .path => .path
  | .header => .header
  | .cookie => .cookie
  | .formData => .formData
  | .body => .requestBody

/-- Does a name end in `id`, in either case? -/
def namesId (name : String) : Bool :=
  ['i', 'd'].isSuffixOf (name.toList.map Char.toLower)

/-- The field of a parameter.  Its description is its own, else that of its schema, else its name
where that ends in `id`. -/
def bindParameter (table : Table ResolvedSchema) (p : Parameter) : Except InvalidRef Field := do
  let l := Lookup.finished table
  let schema := p.effectiveSchema
  let type ← match schema with
    | some s => do pure (← expand l s).type
    | none => pure .any
  let own := p.description.bind DocText.cleanDescription
  let ofSchema := schema.bind (describe l)
  let ofName := if namesId p.name then some p.name else none
  return {
    key := p.name, type, description := orElse own (orElse ofSchema ofName),
    required := p.required, origin := some (originOf p.location), default := p.defaultValue }

/-! ### Bodies -/

/-- The fields of a named schema, where it has any. -/
def schemaFields (table : Table ResolvedSchema) (name : String) :
    Noting InvalidRef (Option (List Field)) := do
  match ((table.get? name).bind ResolvedSchema.properties).bind nonEmpty with
  | some fields => return some fields
  | none =>
    Noting.note (.nothingToBind name)
    return none

/-- The reference that stands for a body: the body itself, its first part, or its items. -/
def bodyRef? : Schema → Option String
  | .ref path => some path
  | .inline shape =>
    orElse (shape.allOf.head?.bind Schema.refPath?) (shape.items.bind Schema.refPath?)

/-- The fields of a body. -/
def namedFields (table : Table ResolvedSchema) (s : Schema) :
    Noting InvalidRef (Option (List Field)) := do
  match bodyRef? s with
  | some path => do
    let name ← refName path
    schemaFields table name
  | none => do
    let e ← expand (.finished table) s
    return e.type.fields?.bind nonEmpty

/-- The schema of a request body that is declared on its own; none where the shared body referred to
is not there. -/
def requestSchema (api : Api) : RefOr RequestBody → Noting InvalidRef (Option Schema)
  | .item b => return b.jsonSchema
  | .ref path => do
    let name ← refName path
    match api.findRequestBody name with
    | some b => return b.jsonSchema
    | none =>
      Noting.note (.bodyMissing path)
      return none

/-- The fields of a request body; a request to get something has none. -/
def bindBody (table : Table ResolvedSchema) (method : Method) (url : String) :
    Option Schema → Noting InvalidRef (Option (List Field))
  | none => return none
  | some s =>
    if method = .get then do
      Noting.note (.bodyIgnored method url)
      return none
    else do
      match ← namedFields table s with
      | some fields => return some (fields.map ({ · with origin := some .requestBody }))
      | none =>
        Noting.note (.bodyUnresolved method url)
        return none

/-! ### Responses -/

/-- The statuses of success, the preferred ones first. -/
def successStatuses : List String := ["200", "201", "204"]

/-- The fields of the first documented success.  A reference to no shared response is taken for one
to a schema. -/
def bindResponse (api : Api) (table : Table ResolvedSchema) (method : Method) (url : String)
    (op : Operation) : Noting InvalidRef (Option (List Field)) := do
  let ofResponse (r : Response) : Noting InvalidRef (Option (List Field)) :=
    match r.jsonSchema with
    | some s => namedFields table s
    | none => do
      Noting.note (.noJson method url)
      return none
  match successStatuses.findSome? op.responses.get? with
  | none =>
    Noting.note (.noSuccess method url)
    return none
  | some (.item r) => ofResponse r
  | some (.ref path) => do
    let name ← refName path
    match api.findResponse name with
    | some r => ofResponse r
    | none => schemaFields table name

/-! ### Operations -/

/-- The summary of an operation: its summary, or its description where it has no summary, cleaned. -/
def summaryOf (op : Operation) : String :=
  ((orElse op.summary op.description).bind DocText.cleanDescription).getD ""

/-- The schema of the last parameter that is a body. -/
def bodyParameterSchema (ps : List Parameter) : Option Schema :=
  ((ps.filter (·.location = .body)).getLast?).bind (·.schema)

/-- An operation with its fields and type names. -/
def bindOperation (api : Api) (table : Table ResolvedSchema) (business : Business) (url : String)
    (method : Method) (ofPath : List (RefOr Parameter)) (op : Operation) :
    Noting InvalidRef BoundOperation := do
  let declared ← collectParameters api ofPath op.parameters
  let fields ← (declared.filter (·.location ≠ .body)).mapM fun p =>
    (bindParameter table p : Noting InvalidRef Field)
  let bodySchema ← match op.requestBody with
    | some b => requestSchema api b
    | none => pure (bodyParameterSchema declared)
  let requestBody ← bindBody table method url bodySchema
  let responses ← bindResponse api table method url op
  let parameters := nonEmpty fields
  return {
    url, method, summary := summaryOf op, tag := op.tags.head?.getD "default",
    requestTypeName :=
      if parameters.isSome || requestBody.isSome then some (typeName method url .request business)
      else none,
    responseTypeName :=
      if responses.isSome then some (typeName method url .response business) else none,
    parameters, requestBody, responses }

end Binding

/-- Every operation of a description, path by path. -/
def bindOperations (api : Api) (table : Table ResolvedSchema) (business : Business) :
    Noting InvalidRef (List BoundOperation) :=
  (api.paths.entries.flatMap fun (url, item) =>
    item.operations.map fun (method, op) => (url, item.parameters, method, op)).mapM
    fun (url, ofPath, method, op) =>
      Binding.bindOperation api table business url method ofPath op

end ApiTypes
