import ApiTypes.Files.Tree
import ApiTypes.Text.Utf8

/-! # Files of bytes

What a file of given bytes holds, and how it shows as text: what encodes no character shows as a
replacement character.

Main definitions: `FileContent.ofBytes`, `FileContent.lossyText`. -/

namespace ApiTypes.FileContent

/-- What a file of the bytes holds. -/
def ofBytes (bytes : List UInt8) : FileContent :=
  match Utf8.text? bytes with
  | some s => .text s
  | none => .binary bytes

/-- The text of a file, with replacement characters where it has none. -/
def lossyText : FileContent → String
  | .text s => s
  | .binary bytes => String.ofList ((Utf8.parts bytes).map (·.getD '\ufffd'))

end ApiTypes.FileContent
