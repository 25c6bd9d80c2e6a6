import ApiTypes.Text.Blank

/-! # Descriptions

The text that documents a schema or an operation, brought to one line: tags are dropped, and white
space between words becomes one space.

Main definitions: `opensTag`, `stripTags`, `cleaned`, `cleanDescription`. -/

namespace ApiTypes.DocText

/-- Does a character after `<` make it open a tag? -/
def opensTag (c : Char) : Bool := c.isAlpha || c == '/' || c == '!'

mutual
/-- The text with each tag replaced by a space.  A tag that is not closed reaches to the end. -/
def stripTags : List Char → List Char
  | [] => []
  | [c] => [c]
  | c :: d :: rest =>
    if c = '<' ∧ opensTag d = true then skipTag (d :: rest) else c :: stripTags (d :: rest)

/-- What follows the tag that is open. -/
def skipTag : List Char → List Char
  | [] => [' ']
  | c :: rest => if c = '>' then ' ' :: stripTags rest else skipTag rest
end

/-- The words of a text outside of tags, with single spaces between them. -/
def cleaned (s : List Char) : List Char :=
  List.intercalate [' '] (Text.words (stripTags s))

/-- The cleaned text, where anything is left of it. -/
def cleanDescription (s : String) : Option String :=
  let t := cleaned s.toList
  if t.isEmpty then none else some (String.ofList t)

end ApiTypes.DocText
