/-! # A place in YAML text

The characters still to be read, with the line and column they start at, and the classes of
characters that YAML distinguishes.

Main definitions: `Cursor`, `advance`, `takeBreak`, `skipByteOrderMark`, `atMarker`. -/

namespace ApiTypes.Yaml

/-- A line break: carriage return, line feed, next line, line or paragraph separator. -/
def isBreak (c : Char) : Bool :=
  c == '\n' || c == '\r' || c == '\u0085' || c == '\u2028' || c == '\u2029'

/-- A space or a tab. -/
def isBlank (c : Char) : Bool := c == ' ' || c == '\t'

/-- A blank or a break. -/
def isGap (c : Char) : Bool := isBlank c || isBreak c

/-- A character of names: a letter or digit of ASCII, a hyphen or an underscore. -/
def isNameChar (c : Char) : Bool := c.isAlphanum || c == '-' || c == '_'

/-- The brackets and the comma of flow collections. -/
def isFlowMark (c : Char) : Bool := c == ',' || c == '[' || c == ']' || c == '{' || c == '}'

/-- Does the text end here, or go on with a blank or a break? -/
def endsWord : List Char → Bool
  | [] => true
  | c :: _ => isGap c

/-- How many bytes the characters take. -/
def byteLength (s : List Char) : Nat := s.foldl (fun n c => n + c.utf8Size) 0

/-- The rest of the text, how many bytes that takes, and the place on the line. -/
structure Cursor where
  rest : List Char
  left : Nat
  line : Nat
  column : Nat

namespace Cursor

/-- The start of a text. -/
def start (s : List Char) : Cursor := ⟨s, byteLength s, 0, 0⟩

/-- Past some characters of the same line. -/
def advance (c : Cursor) (n : Nat) : Cursor :=
  { c with
    rest := c.rest.drop n, left := c.left - byteLength (c.rest.take n), column := c.column + n }

/-- Past a line break; what the break counts as in a scalar: a line feed, or itself where it is a
separator. -/
def takeBreak (c : Cursor) : List Char × Cursor :=
  match c.rest with
  | '\r' :: '\n' :: rest => (['\n'], ⟨rest, c.left - 2, c.line + 1, 0⟩)
  | b :: rest =>
    (if b == '\u2028' || b == '\u2029' then [b] else ['\n'], ⟨rest, c.left - b.utf8Size, c.line + 1, 0⟩)
  | [] => ([], c)

/-- Past the characters of a class on the line. -/
def skipWhile (c : Cursor) (p : Char → Bool) : Cursor :=
  c.advance (c.rest.takeWhile p).length

/-- Past a byte order mark at the start of a line; it takes a column. -/
def skipByteOrderMark (c : Cursor) : Cursor :=
  if c.column == 0 && c.rest.head? == some '\ufeff' then c.advance 1 else c

/-- Past a comment, up to its line break. -/
def skipComment (c : Cursor) : Cursor :=
  match c.rest with
  | '#' :: _ => c.skipWhile (!isBreak ·)
  | _ => c

/-- Is the cursor at the end of the text or at a line break? -/
def atLineEnd (c : Cursor) : Bool :=
  match c.rest with
  | [] => true
  | b :: _ => isBreak b

/-- Is the cursor at a document marker: three hyphens or three points that stand at the start of a
line, and alone? -/
def atMarker (c : Cursor) : Bool :=
  c.column == 0 &&
    match c.rest with
    | '-' :: '-' :: '-' :: rest => endsWord rest
    | '.' :: '.' :: '.' :: rest => endsWord rest
    | _ => false

end Cursor

end ApiTypes.Yaml
