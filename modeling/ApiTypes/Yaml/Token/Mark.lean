import ApiTypes.Yaml.Cursor
import ApiTypes.Yaml.Tag
import ApiTypes.Yaml.Token

/-! # Directives, anchors and tags in YAML text

The tokens that start with a percent sign, an ampersand, an asterisk or an exclamation mark.

Main definitions: `uri`, `tagToken`, `nameToken`, `directive`. -/

namespace ApiTypes.Yaml

/-- The value of two digits of base sixteen. -/
def octet? (a b : Char) : Option Nat := do
  let value? (c : Char) : Option Nat :=
    if '0' ≤ c ∧ c ≤ '9' then some (c.toNat - 48)
    else if 'a' ≤ c ∧ c ≤ 'f' then some (c.toNat - 87)
    else if 'A' ≤ c ∧ c ≤ 'F' then some (c.toNat - 55)
    else none
  let a ← value? a
  let b ← value? b
  pure (a * 16 + b)

/-- How many octets follow the first octet of a character. -/
def octetsAfter (n : Nat) : Option Nat :=
  if n < 0x80 then some 0
  else if n / 0x20 = 6 then some 1
  else if n / 0x10 = 14 then some 2
  else if n / 8 = 30 then some 3
  else none

/-- An octet in front, written with a percent sign. -/
def percentOctet : List Char → Option (Nat × List Char)
  | '%' :: a :: b :: rest => (octet? a b).map (·, rest)
  | _ => none

/-- The further octets of a character, each written with a percent sign. -/
def moreOctets : Nat → List Char → Option (List Nat × List Char)
  | 0, s => some ([], s)
  | n + 1, s => do
    let (o, s) ← percentOctet s
    if o / 0x40 = 2 then
      let (os, s) ← moreOctets n s
      pure (o :: os, s)
    else none

/-- The octets in front that have the shape of a character, each written with a percent sign.  They
need not encode one. -/
def percentOctets (s : List Char) : Option (List Nat × List Char) := do
  let (o, s) ← percentOctet s
  let n ← octetsAfter o
  let (os, s) ← moreOctets n s
  pure (o :: os, s)

/-- A character that a tag may hold; commas and brackets only in a tag between angle brackets. -/
def isUriChar (verbatim : Bool) (c : Char) : Bool :=
  isNameChar c || c == ';' || c == '/' || c == '?' || c == ':' || c == '@' || c == '&' ||
    c == '=' || c == '+' || c == '$' || c == '.' || c == '!' || c == '~' || c == '*' ||
    c == '\'' || c == '(' || c == ')' || (verbatim && (c == ',' || c == '[' || c == ']'))

/-- The octets of a tag in front, and how many characters spell them. -/
def uri (verbatim : Bool) : Nat → List Char → Option (List UInt8 × Nat)
  | 0, _ => none
  | fuel + 1, '%' :: rest => do
    let (os, after) ← percentOctets ('%' :: rest)
    let (more, n) ← uri verbatim fuel after
    pure (os.map UInt8.ofNat ++ more, n + (rest.length + 1 - after.length))
  | fuel + 1, c :: rest =>
    if isUriChar verbatim c then
      (uri verbatim fuel rest).map fun (more, n) => (Tag.octet c :: more, n + 1)
    else some ([], 0)
  | _ + 1, [] => some ([], 0)

/-- The octets up to the first that is zero: what follows it is no part of a tag. -/
def upToZero (octets : List UInt8) : List UInt8 := octets.takeWhile (· != 0)

/-- The handle in front: an exclamation mark, a name, and a second mark where there is one. -/
def tagHandle : List Char → Option (List Char)
  | '!' :: rest =>
    let name := rest.takeWhile isNameChar
    if (rest.drop name.length).head? == some '!' then some ('!' :: name ++ ['!'])
    else some ('!' :: name)
  | _ => none

/-- Has the handle a mark at either end? -/
def isFullHandle (handle : List Char) : Bool :=
  decide (2 ≤ handle.length) && handle.getLast? == some '!'

/-- A tag: verbatim between angle brackets, or a handle with a suffix.  A name after a single mark
is part of the suffix; the mark alone is a tag of its own. -/
def tagToken (flow : Bool) (c : Cursor) : Option (Token × Cursor) := do
  let fuel := c.left + 1
  let (token, c) ← match c.rest with
    | '!' :: '<' :: rest => do
      let (octets, n) ← uri true fuel rest
      if n = 0 || (rest.drop n).head? != some '>' then none
      else some (Token.tag "" (upToZero octets), c.advance (n + 3))
    | s => do
      let handle ← tagHandle s
      let (octets, n) ← uri false fuel (s.drop handle.length)
      let c := c.advance (handle.length + n)
      if isFullHandle handle then
        if n = 0 then none else some (Token.tag (String.ofList handle) (upToZero octets), c)
      else
        let suffix := upToZero (Tag.octets (handle.drop 1) ++ octets)
        some (if suffix.isEmpty then Token.tag "" [Tag.octet '!'] else Token.tag "!" suffix, c)
  if endsWord c.rest || (flow && c.rest.head? == some ',') then some (token, c) else none

/-- May a name end here? -/
def endsName : List Char → Bool
  | [] => true
  | c :: _ => isGap c || c == '?' || c == ':' || c == ',' || c == ']' || c == '}' || c == '%' ||
    c == '@' || c == '`'

/-- An anchor or an alias: its sign and a name. -/
def nameToken (make : String → Token) (c : Cursor) : Option (Token × Cursor) :=
  let c := c.advance 1
  let name := c.rest.takeWhile isNameChar
  let c := c.advance name.length
  if name.isEmpty || !endsName c.rest then none else some (make (String.ofList name), c)

/-- A number of a version, of at most nine digits. -/
def versionNumber (c : Cursor) : Option (Nat × Cursor) :=
  let ds := c.rest.takeWhile Char.isDigit
  if ds.isEmpty || ds.length > 9 then none
  else some (ds.foldl (fun n d => n * 10 + (d.toNat - 48)) 0, c.advance ds.length)

/-- The version that a directive declares. -/
def versionDirective (c : Cursor) : Option (Token × Cursor) := do
  let (major, c) ← versionNumber (c.skipWhile isBlank)
  if c.rest.head? != some '.' then none
  else
    let (minor, c) ← versionNumber (c.advance 1)
    some (.versionDirective major minor, c)

/-- The handle and the base that a directive declares. -/
def tagDirective (c : Cursor) : Option (Token × Cursor) := do
  let c := c.skipWhile isBlank
  let handle ← tagHandle c.rest
  let c := c.advance handle.length
  if !(isFullHandle handle || handle == ['!']) || !(c.rest.head?.any isBlank) then none
  else
    let c := c.skipWhile isBlank
    let (octets, n) ← uri true (c.left + 1) c.rest
    let c := c.advance n
    if n = 0 || !endsWord c.rest then none
    else some (.tagDirective (String.ofList handle) (upToZero octets), c)

/-- A directive with the rest of its line. -/
def directive (c : Cursor) : Option (Token × Cursor) := do
  let c := c.advance 1
  let name := c.rest.takeWhile isNameChar
  let c := c.advance name.length
  if name.isEmpty || !endsWord c.rest then none
  else
    let (token, c) ←
      if name = ['Y', 'A', 'M', 'L'] then versionDirective c
      else if name = ['T', 'A', 'G'] then tagDirective c
      else none
    let c := (c.skipWhile isBlank).skipComment
    if c.atLineEnd then some (token, c.takeBreak.2) else none

end ApiTypes.Yaml
