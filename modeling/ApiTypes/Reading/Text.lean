import ApiTypes.Json.Reader
import ApiTypes.Reading.Api
import ApiTypes.Reading.OfJson
import ApiTypes.Reading.OfYaml
import ApiTypes.Text.Blank
import ApiTypes.Yaml.Node.OfTokens

/-! # Reading texts

A text in one of two formats, read for one thing.  A description whose format is not said is JSON
where it starts with a brace, and YAML otherwise.

Main definitions: `json?`, `yaml?`, `Api.ofJson`, `Api.ofYaml`, `Api.ofText`. -/

namespace ApiTypes

namespace Reading

variable {α : Type}

/-- What a JSON text is read for. -/
def json? (read : Json.At → Reading α) (s : String) : Option α :=
  (Json.ofText? s).bind fun v => (read ⟨v, Json.maxLevels⟩).result? 0

/-- What a YAML text is read for. -/
def yaml? (read : Yaml.At → Reading α) (s : String) : Option α :=
  (Yaml.Document.ofText? s).bind fun d => (read d.place).result? d.aliasLimit

end Reading

namespace Api

/-- The description in a JSON text. -/
def ofJson (s : String) : Except ReadError Api :=
  match Reading.json? Reading.api s with
  | none => .error .json
  | some api => api.checkVersion

/-- The description in a YAML text. -/
def ofYaml (s : String) : Except ReadError Api :=
  match Reading.yaml? Reading.api s with
  | none => .error .yaml
  | some api => api.checkVersion

/-- Does the text start with a brace, after white space? -/
def startsObject (s : String) : Bool := (Text.trimStart s.toList).head? == some '{'

/-- The description in a text of either format. -/
def ofText (s : String) : Except ReadError Api :=
  if startsObject s then ofJson s else ofYaml s

end Api

end ApiTypes
