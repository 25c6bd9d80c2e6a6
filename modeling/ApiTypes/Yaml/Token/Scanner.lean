import ApiTypes.Yaml.Token.Mark
import ApiTypes.Yaml.Token.Scalar

/-! # Cutting YAML text into tokens

The text is read token by token.  The columns of the open blocks are kept, innermost first; for each
open flow collection, and for the block around them, the place of a token that may turn out to be a
simple key.  A simple key stands on one line, takes at most 1024 bytes, and is known for one when its
colon is met: a key token is then put before it.

Main definitions: `SimpleKey`, `Scanner`, `Scanner.next`, `Token.ofText?`. -/

namespace ApiTypes.Yaml

/-- A token that may be a simple key: how many tokens stand before it, where it starts (with so many
bytes left), and whether it must be one. -/
structure SimpleKey where
  position : Nat
  left : Nat
  line : Nat
  column : Nat
  required : Bool

/-- Is the token too far back to be a key here? -/
def SimpleKey.isStale (k : SimpleKey) (c : Cursor) : Bool :=
  decide (k.line < c.line) || decide (c.left + 1024 < k.left)

/-- What is known while text is cut into tokens.  `read` holds the tokens, last first, and `count`
their number; `keys` has one place for the block and one for each open flow collection, innermost
first. -/
structure Scanner where
  cursor : Cursor
  read : List Token := []
  count : Nat := 0
  columns : List Nat := []
  keys : List (Option SimpleKey) := [none]
  keyAllowed : Bool := true

namespace Scanner

/-- Is a flow collection open? -/
def inFlow (s : Scanner) : Bool :=
  match s.keys with
  | _ :: _ :: _ => true
  | _ => false

/-- The column of the innermost open block; -1 outside of all. -/
def indent (s : Scanner) : Int :=
  match s.columns with
  | [] => -1
  | c :: _ => c

/-- Add a token at the end. -/
def emit (s : Scanner) (t : Token) : Scanner :=
  { s with read := t :: s.read, count := s.count + 1 }

/-- Put a token before all but the first `position` tokens. -/
def insertAt (s : Scanner) (position : Nat) (t : Token) : Scanner :=
  let later := s.count - position
  { s with read := s.read.take later ++ t :: s.read.drop later, count := s.count + 1 }

/-- Add a token of some characters on the line. -/
def emitMark (s : Scanner) (n : Nat) (t : Token) : Scanner :=
  { s.emit t with cursor := s.cursor.advance n }

/-! ### Blocks -/

/-- Open a block at a column that is further right than the open ones; its token goes before all but
the first `position` tokens. -/
def openBlock (s : Scanner) (column position : Nat) (t : Token) : Scanner :=
  if !s.inFlow && s.indent < (column : Int) then
    { s.insertAt position t with columns := column :: s.columns }
  else s

/-- Close one block for each of the columns. -/
def closeEach (s : Scanner) : List Nat → Scanner
  | [] => s
  | _ :: rest => closeEach { s.emit .blockEnd with columns := s.columns.drop 1 } rest

/-- Close the blocks that start right of the column. -/
def closeBlocks (s : Scanner) (column : Int) : Scanner :=
  if s.inFlow then s
  else s.closeEach (s.columns.takeWhile fun c => decide (column < (c : Int)))

/-! ### Simple keys -/

/-- Forget the innermost possible key; a required one may not be missing. -/
def dropKey (s : Scanner) : Option Scanner :=
  match s.keys with
  | some k :: rest => if k.required then none else some { s with keys := none :: rest }
  | _ => some s

/-- Note that the token to come may be a simple key. -/
def noteKey (s : Scanner) : Option Scanner :=
  if s.keyAllowed then do
    let s ← s.dropKey
    let c := s.cursor
    let key : SimpleKey :=
      ⟨s.count, c.left, c.line, c.column, !s.inFlow && s.indent == (c.column : Int)⟩
    some { s with keys := some key :: s.keys.drop 1 }
  else some s

/-- Forget the innermost possible key where it is too far back; a required one may not be.  The keys
around it are asked when they become the innermost: what is too far back stays so. -/
def dropStaleKey (s : Scanner) : Option Scanner :=
  match s.keys with
  | some k :: _ => if k.isStale s.cursor then s.dropKey else some s
  | _ => some s

/-! ### Tokens -/

/-- Past white space, comments and byte order marks at the starts of lines to the next token.  In a
block a line break lets a key follow; a tab is skipped only where no key may follow. -/
def skipToToken : Nat → Scanner → Scanner
  | 0, s => s
  | fuel + 1, s =>
    let tabs := s.inFlow || !s.keyAllowed
    let c := s.cursor.skipByteOrderMark
    let c := (c.skipWhile fun ch => ch == ' ' || (tabs && ch == '\t')).skipComment
    match c.rest with
    | ch :: _ =>
      if isBreak ch then
        skipToToken fuel
          { s with cursor := c.takeBreak.2, keyAllowed := s.keyAllowed || !s.inFlow }
      else { s with cursor := c }
    | [] => { s with cursor := c }

/-- A directive or document marker closes all blocks. -/
def startOfDocument (s : Scanner) : Option Scanner :=
  ((s.closeBlocks (-1)).dropKey).map fun s => { s with keyAllowed := false }

/-- The opening of a flow collection. -/
def openFlow (s : Scanner) (t : Token) : Option Scanner := do
  let s ← s.noteKey
  some { s.emitMark 1 t with keys := none :: s.keys, keyAllowed := true }

/-- The end of a flow collection. -/
def closeFlow (s : Scanner) (t : Token) : Option Scanner := do
  let s ← s.dropKey
  let keys := if s.inFlow then s.keys.drop 1 else s.keys
  some { s.emitMark 1 t with keys, keyAllowed := false }

/-- The comma of a flow collection. -/
def flowEntry (s : Scanner) : Option Scanner := do
  let s ← s.dropKey
  some { s.emitMark 1 .flowEntry with keyAllowed := true }

/-- The hyphen of a block entry; in a block it stands only where a key may. -/
def blockEntry (s : Scanner) : Option Scanner :=
  if !s.inFlow && !s.keyAllowed then none
  else do
    let s ← (s.openBlock s.cursor.column s.count .blockSequenceStart).dropKey
    some { s.emitMark 1 .blockEntry with keyAllowed := true }

/-- The question mark before a key; in a block it stands only where a key may. -/
def explicitKey (s : Scanner) : Option Scanner :=
  if !s.inFlow && !s.keyAllowed then none
  else do
    let s ← (s.openBlock s.cursor.column s.count .blockMappingStart).dropKey
    some { s.emitMark 1 .key with keyAllowed := !s.inFlow }

/-- The colon before a value: the possible key becomes one; without a key it stands in a block only
where a key may. -/
def keyValue (s : Scanner) : Option Scanner :=
  match s.keys with
  | some k :: rest =>
    let s := (s.insertAt k.position .key).openBlock k.column k.position .blockMappingStart
    some { s.emitMark 1 .value with keys := none :: rest, keyAllowed := false }
  | _ =>
    if !s.inFlow && !s.keyAllowed then none
    else
      let s := s.openBlock s.cursor.column s.count .blockMappingStart
      some { s.emitMark 1 .value with keyAllowed := !s.inFlow }

/-- A token that may be a key, read by a reader of its own. -/
def keyLike (s : Scanner) (read : Cursor → Option (Token × Cursor)) : Option Scanner := do
  let s ← s.noteKey
  let (t, c) ← read s.cursor
  some { s.emit t with cursor := c, keyAllowed := false }

/-- A block scalar. -/
def blockScalar (s : Scanner) (folded : Bool) : Option Scanner := do
  let s ← s.dropKey
  let (text, c) ← block folded s.indent (s.cursor.advance 1)
  let style := if folded then ScalarStyle.folded else .literal
  some { s.emit (.scalar (String.ofList text) style) with cursor := c, keyAllowed := true }

/-- A quoted scalar. -/
def quotedScalar (s : Scanner) (double : Bool) : Option Scanner :=
  s.keyLike fun c => do
    let fuel := c.left + 1
    let (text, c) ← if double then doubleQuoted fuel (c.advance 1)
      else singleQuoted fuel (c.advance 1)
    let style := if double then ScalarStyle.doubleQuoted else .singleQuoted
    some (.scalar (String.ofList text) style, c)

/-- A plain scalar; a line break at its end lets a key follow. -/
def plainScalar (s : Scanner) : Option Scanner := do
  let s ← s.noteKey
  let (text, broken, c) ← plain s.inFlow (s.indent + 1) (s.cursor.left + 1) s.cursor {}
  some { s.emit (.scalar (String.ofList text) .plain) with cursor := c, keyAllowed := broken }

/-- May a plain scalar start with the character, given what follows it? -/
def startsPlain (flow : Bool) (ch : Char) (rest : List Char) : Bool :=
  if ch == '-' then !(rest.head?.any isBlank)
  else if ch == '?' || ch == ':' then !flow && !endsWord rest
  else !(isGap ch || isFlowMark ch || ch == '#' || ch == '&' || ch == '*' || ch == '!' ||
    ch == '|' || ch == '>' || ch == '\'' || ch == '"' || ch == '%' || ch == '@' || ch == '`')

/-- The token that starts with the character. -/
def token (s : Scanner) (ch : Char) (rest : List Char) : Option Scanner :=
  let flow := s.inFlow
  if s.cursor.column == 0 && ch == '%' then do
    let s ← s.startOfDocument
    let (t, c) ← directive s.cursor
    some { s.emit t with cursor := c }
  else if s.cursor.atMarker then
    s.startOfDocument.map (·.emitMark 3 (if ch == '-' then .documentStart else .documentEnd))
  else if ch == '[' then s.openFlow .flowSequenceStart
  else if ch == '{' then s.openFlow .flowMappingStart
  else if ch == ']' then s.closeFlow .flowSequenceEnd
  else if ch == '}' then s.closeFlow .flowMappingEnd
  else if ch == ',' then s.flowEntry
  else if ch == '-' && endsWord rest then s.blockEntry
  else if ch == '?' && (flow || endsWord rest) then s.explicitKey
  else if ch == ':' && (flow || endsWord rest) then s.keyValue
  else if ch == '*' then s.keyLike (nameToken .alias)
  else if ch == '&' then s.keyLike (nameToken .anchor)
  else if ch == '!' then s.keyLike (tagToken flow)
  else if ch == '|' && !flow then s.blockScalar false
  else if ch == '>' && !flow then s.blockScalar true
  else if ch == '\'' then s.quotedScalar false
  else if ch == '"' then s.quotedScalar true
  else if startsPlain flow ch rest then s.plainScalar
  else none

/-- Read the next token, and those that open or close blocks with it. -/
def next (s : Scanner) (ch : Char) (rest : List Char) : Option Scanner := do
  let s ← s.dropStaleKey
  (s.closeBlocks s.cursor.column).token ch rest

/-- Close what is open at the end of the text. -/
def finish (s : Scanner) : Option Scanner := do
  let s ← s.dropStaleKey
  (s.closeBlocks (-1)).dropKey

/-- Read tokens up to the end of the text. -/
def run : Nat → Scanner → Option Scanner
  | 0, _ => none
  | fuel + 1, s =>
    let s := s.skipToToken (s.cursor.left + 1)
    match s.cursor.rest with
    | [] => s.finish
    | ch :: rest => (s.next ch rest).bind (run fuel)

end Scanner

/-- May the character stand in YAML text? -/
def isAllowed (c : Char) : Bool :=
  let n := c.toNat
  n == 0x09 || n == 0x0A || n == 0x0D || (decide (0x20 ≤ n) && decide (n ≤ 0x7E)) || n == 0x85 ||
    (decide (0xA0 ≤ n) && decide (n ≤ 0xD7FF)) || (decide (0xE000 ≤ n) && decide (n ≤ 0xFFFD)) ||
    decide (0x10000 ≤ n)

/-- The tokens of a text; none where it is not well formed. -/
def Token.ofText? (s : List Char) : Option (List Token) :=
  if s.all isAllowed then
    (Scanner.run (s.length + 1) { cursor := .start s }).map (·.read.reverse)
  else none

end ApiTypes.Yaml
