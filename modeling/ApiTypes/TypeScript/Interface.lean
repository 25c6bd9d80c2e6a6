import ApiTypes.Resolution.Operations
import ApiTypes.TypeScript.Type

/-! # TypeScript interfaces

The interfaces of operations: one for the request and one for the response of each, where they have
a name.  A comment before each says what it is for, and a comment before a member describes it.

Main definitions: `Policy`, `Property`, `Interface`, `Interface.chars`, `interfacesOf`,
`typesText`. -/

namespace ApiTypes

/-- Whether the members of a side are all required, whatever the schema says. -/
structure Policy where
  requireRequest : Bool := false
  requireResponse : Bool := true
  deriving DecidableEq, Repr

namespace TypeScript

/-- A member of an interface, with its description. -/
structure Property where
  description : Option String
  member : Member

/-- An interface, with what its comment says. -/
structure Interface where
  summary : String
  url : String
  method : Method
  business : String
  name : String
  properties : List Property

/-! ### Interfaces of operations -/

/-- The properties of fields; with `force` none is optional. -/
def propertiesOf (force : Bool) (fields : List Field) : List Property :=
  fields.map fun f => ⟨f.description, ofField force f⟩

/-- The interface of one side of an operation. -/
def interfaceOf (business : String) (o : BoundOperation) (name : String) (fields : List Field)
    (force : Bool) : Interface :=
  ⟨o.summary, o.url, o.method, business, name, propertiesOf force fields⟩

/-- The interfaces of an operation. -/
def interfacesOf (business : String) (policy : Policy) (o : BoundOperation) : List Interface :=
  (o.requestTypeName.map fun name =>
    interfaceOf business o name o.requestFields policy.requireRequest).toList ++
  (o.responseTypeName.map fun name =>
    interfaceOf business o name o.responseFields policy.requireResponse).toList

/-! ### Text -/

/-- A text in which no comment ends. -/
def escapeComment (s : List Char) : List Char :=
  Text.replacePair '*' '/' ['*', '\\', '/'] s

/-- A line with its break. -/
def line (s : List Char) : List Char := s ++ ['\n']

/-- The comment before an interface. -/
def Interface.header (i : Interface) : List Char :=
  line "/**".toList ++
    (if i.summary.isEmpty then []
      else line (" * ".toList ++ escapeComment i.summary.toList) ++ line " *".toList) ++
    line (" * @url ".toList ++ i.url.toList) ++
    line (" * @method ".toList ++ i.method.name.toList) ++
    line (" * @business ".toList ++ i.business.toList) ++
    line " */".toList

/-- The comment before a property, where it is described. -/
def Property.comment (p : Property) : List Char :=
  match p.description with
  | none => []
  | some d =>
    if d.isEmpty then [] else line ("  /** ".toList ++ escapeComment d.toList ++ " */".toList)

/-- A property with its comment. -/
def Property.chars (p : Property) : List Char :=
  p.comment ++ line (' ' :: ' ' :: p.member.chars ++ [';'])

/-- An interface with its comment, and an empty line after it. -/
def Interface.chars (i : Interface) : List Char :=
  i.header ++ line ("export interface ".toList ++ i.name.toList ++ [' ', '{']) ++
    i.properties.flatMap Property.chars ++ line ['}'] ++ ['\n']

end TypeScript

/-- The interfaces of operations, in order. -/
def interfacesOf (business : String) (policy : Policy) (ops : List BoundOperation) :
    List TypeScript.Interface :=
  ops.flatMap (TypeScript.interfacesOf business policy)

/-- The text of the types of operations. -/
def typesText (business : String) (policy : Policy) (ops : List BoundOperation) : String :=
  String.ofList ((interfacesOf business policy ops).flatMap (·.chars))

/-- The extension of the files of types. -/
def typesExtension : String := "ts"

end ApiTypes
