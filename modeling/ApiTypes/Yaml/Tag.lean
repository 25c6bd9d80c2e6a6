import ApiTypes.Text.Utf8

/-! # YAML tags

What a tag says of a node.  Tags are spelt in octets, which need not be text; a tag whose octets
start with an exclamation mark is the document's own, and names something only where the rest of
them is text.

Main definitions: `Tag`, `Tag.ofOctets`, `Tag.name?`. -/

namespace ApiTypes.Yaml

/-- A tag: one of the core schema that decides the kind of a scalar, one of the document's own with
its name, or any other. -/
inductive Tag where
  | null
  | boolean
  | integer
  | number
  | own (name : Option String)
  | other
  deriving DecidableEq, Repr

namespace Tag

/-- The octet of an ASCII character. -/
def octet (c : Char) : UInt8 := UInt8.ofNat c.toNat

/-- The octets of ASCII text. -/
def octets (s : List Char) : List UInt8 := s.map octet

/-- The octets with which the tags of the core schema start. -/
def coreBase : List UInt8 := octets "tag:yaml.org,2002:".toList

/-- The tag that a text spells. -/
def ofText (s : String) : Tag :=
  if s = "tag:yaml.org,2002:null" then .null
  else if s = "tag:yaml.org,2002:bool" then .boolean
  else if s = "tag:yaml.org,2002:int" then .integer
  else if s = "tag:yaml.org,2002:float" then .number
  else .other

/-- The tag that octets spell. -/
def ofOctets (bytes : List UInt8) : Tag :=
  if bytes.head? = some (octet '!') then .own (Utf8.text? (bytes.drop 1))
  else ((Utf8.text? bytes).map ofText).getD .other

/-- The name that a tag of the document's own gives. -/
def name? : Tag → Option String
  | .own name => name
  | _ => none

end Tag

end ApiTypes.Yaml
