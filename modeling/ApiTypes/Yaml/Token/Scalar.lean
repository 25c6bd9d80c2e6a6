import ApiTypes.Yaml.Cursor

/-! # Scalars in YAML text

The text of a scalar in each of its styles, and where it ends.  In plain and quoted scalars a single
line break between two parts counts as a space and of several breaks all but the first are kept;
block scalars keep their lines, or fold those that start without a blank.

Main definitions: `Gap`, `plain`, `singleQuoted`, `doubleQuoted`, `block`. -/

namespace ApiTypes.Yaml

/-! ### White space inside a scalar -/

/-- The white space read since the last part of a scalar: blanks before any break, what the first
break counts as, and what further breaks count as. -/
structure Gap where
  blanks : List Char := []
  broken : Bool := false
  first : List Char := []
  more : List Char := []

/-- What the gap becomes when another part follows. -/
def Gap.text (g : Gap) : List Char :=
  if !g.broken then g.blanks
  else if g.first == ['\n'] then if g.more.isEmpty then [' '] else g.more
  else g.first ++ g.more

/-- Read white space.  A tab that stands in the indentation, left of `tabLimit`, is refused. -/
def gap (tabLimit : Int) : Nat → Cursor → Gap → Option (Gap × Cursor)
  | 0, _, _ => none
  | fuel + 1, c, g =>
    match c.rest with
    | [] => some (g, c)
    | ch :: _ =>
      if isBlank ch then
        if g.broken then
          if ch == '\t' && (c.column : Int) < tabLimit then none
          else gap tabLimit fuel (c.advance 1) g
        else gap tabLimit fuel (c.advance 1) { g with blanks := g.blanks ++ [ch] }
      else if isBreak ch then
        let (b, c) := c.takeBreak
        if g.broken then gap tabLimit fuel c { g with more := g.more ++ b }
        else gap tabLimit fuel c { g with blanks := [], broken := true, first := b }
      else some (g, c)

/-! ### Plain scalars -/

/-- The characters of a plain scalar up to white space or to what ends it.  In a flow collection a
colon right before a bracket, a comma or a question mark is refused. -/
def plainPart (flow : Bool) : List Char → Option (List Char)
  | [] => some []
  | ch :: rest =>
    if isGap ch then some []
    else if flow && ch == ':' && (rest.head?.any fun d => isFlowMark d || d == '?') then none
    else if (ch == ':' && endsWord rest) || (flow && isFlowMark ch) then some []
    else (plainPart flow rest).map (ch :: ·)

/-- A plain scalar, or the rest of one after the white space given; its lines are indented by at
least `indent` outside flow collections.  Also whether it ended after a line break. -/
def plain (flow : Bool) (indent : Int) : Nat → Cursor → Gap → Option (List Char × Bool × Cursor)
  | 0, _, _ => none
  | fuel + 1, c, g =>
    if c.atMarker || c.rest.head? == some '#' then some ([], g.broken, c)
    else do
      let part ← plainPart flow c.rest
      if part.isEmpty then some ([], g.broken, c)
      else
        let text := g.text ++ part
        let c := c.advance part.length
        if !(c.rest.head?.any isGap) then some (text, false, c)
        else
          let (g, c) ← gap indent (c.left + 1) c {}
          if !flow && (c.column : Int) < indent then some (text, g.broken, c)
          else (plain flow indent fuel c g).map fun (more, broken, c) => (text ++ more, broken, c)

/-! ### Quoted scalars -/

/-- Part of a single quoted scalar up to white space or its closing quote. -/
def singlePart : List Char → List Char × Nat
  | '\'' :: '\'' :: rest =>
    let (part, n) := singlePart rest
    ('\'' :: part, n + 2)
  | ch :: rest =>
    if ch == '\'' || isGap ch then ([], 0)
    else
      let (part, n) := singlePart rest
      (ch :: part, n + 1)
  | [] => ([], 0)

/-- A single quoted scalar after its opening quote. -/
def singleQuoted : Nat → Cursor → Option (List Char × Cursor)
  | 0, _ => none
  | fuel + 1, c =>
    if c.atMarker || c.rest.isEmpty then none
    else
      let (part, n) := singlePart c.rest
      let c := c.advance n
      if c.rest.head? == some '\'' then some (part, c.advance 1)
      else do
        let (g, c) ← gap (-1) (c.left + 1) c {}
        let (more, c) ← singleQuoted fuel c
        pure (part ++ g.text ++ more, c)

/-- The value of a digit of base sixteen. -/
def hexValue? (c : Char) : Option Nat :=
  if '0' ≤ c ∧ c ≤ '9' then some (c.toNat - 48)
  else if 'a' ≤ c ∧ c ≤ 'f' then some (c.toNat - 87)
  else if 'A' ≤ c ∧ c ≤ 'F' then some (c.toNat - 55)
  else none

/-- The character with the code in the first `n` digits of base sixteen. -/
def hexChar (n : Nat) (s : List Char) : Option Char := do
  let ds ← (s.take n).mapM hexValue?
  let code := ds.foldl (fun v d => v * 16 + d) 0
  if ds.length < n || (0xD800 ≤ code && code ≤ 0xDFFF) || code > 0x10FFFF then none
  else some (Char.ofNat code)

/-- The character that an escape stands for, and the length of what follows its letter. -/
def escaped (letter : Char) (rest : List Char) : Option (Char × Nat) :=
  match letter with
  | '0' => some ('\x00', 0)
  | 'a' => some ('\x07', 0)
  | 'b' => some ('\x08', 0)
  | 't' => some ('\t', 0)
  | '\t' => some ('\t', 0)
  | 'n' => some ('\n', 0)
  | 'v' => some ('\x0b', 0)
  | 'f' => some ('\x0c', 0)
  | 'r' => some ('\r', 0)
  | 'e' => some ('\x1b', 0)
  | ' ' => some (' ', 0)
  | '"' => some ('"', 0)
  | '/' => some ('/', 0)
  | '\\' => some ('\\', 0)
  | 'N' => some ('\u0085', 0)
  | '_' => some ('\u00a0', 0)
  | 'L' => some ('\u2028', 0)
  | 'P' => some ('\u2029', 0)
  | 'x' => (hexChar 2 rest).map (·, 2)
  | 'u' => (hexChar 4 rest).map (·, 4)
  | 'U' => (hexChar 8 rest).map (·, 8)
  | _ => none

/-- Part of a double quoted scalar up to white space, its closing quote or an escaped line break;
whether it was the latter. -/
def doublePart : Nat → Cursor → Option (List Char × Bool × Cursor)
  | 0, _ => none
  | fuel + 1, c =>
    match c.rest with
    | [] => some ([], false, c)
    | '\\' :: [] => none
    | '\\' :: letter :: rest =>
      if isBreak letter then some ([], true, (c.advance 1).takeBreak.2)
      else do
        let (ch, n) ← escaped letter rest
        let (part, brokenOff, c) ← doublePart fuel (c.advance (2 + n))
        pure (ch :: part, brokenOff, c)
    | ch :: _ =>
      if ch == '"' || isGap ch then some ([], false, c)
      else do
        let (part, brokenOff, c) ← doublePart fuel (c.advance 1)
        pure (ch :: part, brokenOff, c)

/-- A double quoted scalar after its opening quote. -/
def doubleQuoted : Nat → Cursor → Option (List Char × Cursor)
  | 0, _ => none
  | fuel + 1, c =>
    if c.atMarker || c.rest.isEmpty then none
    else do
      let (part, brokenOff, c) ← doublePart (c.left + 1) c
      if c.rest.head? == some '"' then some (part, c.advance 1)
      else
        let (g, c) ← gap (-1) (c.left + 1) c { broken := brokenOff }
        let (more, c) ← doubleQuoted fuel c
        pure (part ++ g.text ++ more, c)

/-! ### Block scalars -/

/-- Which of the last line breaks of a block scalar are kept. -/
inductive Chomping where
  | strip
  | clip
  | keep
  deriving DecidableEq, Repr

/-- The chomping that a sign asks for. -/
def chomping? : Char → Option Chomping
  | '+' => some .keep
  | '-' => some .strip
  | _ => none

/-- The indentation that a digit asks for. -/
def increment? (c : Char) : Option Nat :=
  if '1' ≤ c ∧ c ≤ '9' then some (c.toNat - 48) else none

/-- The signs after the mark of a block scalar: chomping and indentation, each at most once, in
either order; the digit zero is refused. -/
def blockHeader (s : List Char) : Option (Chomping × Option Nat × Nat) :=
  match s with
  | [] => some (.clip, none, 0)
  | a :: rest =>
    if a == '0' then none
    else match chomping? a with
      | some k =>
        match rest.head? with
        | some '0' => none
        | some b => match increment? b with
          | some n => some (k, some n, 2)
          | none => some (k, none, 1)
        | none => some (k, none, 1)
      | none => match increment? a with
        | some n => match rest.head?.bind chomping? with
          | some k => some (k, some n, 2)
          | none => some (.clip, some n, 1)
        | none => some (.clip, none, 0)

/-- The empty lines of a block scalar up to its next line.  Until its indentation is known, `indent`
is zero and the widest of the empty lines is remembered.  A tab in the indentation is refused. -/
def emptyLines (indent : Nat) : Nat → Cursor → Nat → List Char → Option (Nat × List Char × Cursor)
  | 0, _, _, _ => none
  | fuel + 1, c, widest, out =>
    let spaces := (c.rest.takeWhile (· == ' ')).length
    let c := c.advance (if indent = 0 then spaces else min spaces (indent - c.column))
    let widest := max widest c.column
    match c.rest with
    | [] => some (widest, out, c)
    | ch :: _ =>
      if (indent = 0 || c.column < indent) && ch == '\t' then none
      else if isBreak ch then
        let (b, c) := c.takeBreak
        emptyLines indent fuel c widest (out ++ b)
      else some (widest, out, c)

/-- The lines of a block scalar, with what its last line break and the empty lines after that count
as.  `held` and `empty` are the same for the line before, and `blankBefore` is whether that line
started with a blank. -/
def blockLines (folded : Bool) (indent : Nat) : Nat → Cursor → (held empty : List Char) →
    (blankBefore : Bool) → Option (List Char × List Char × List Char × Cursor)
  | 0, _, _, _, _ => none
  | fuel + 1, c, held, empty, blankBefore =>
    match c.rest with
    | [] => some ([], held, empty, c)
    | ch :: _ =>
      if c.column ≠ indent then some ([], held, empty, c)
      else do
        let blankNow := isBlank ch
        let joint :=
          if folded && held == ['\n'] && !blankBefore && !blankNow then
            if empty.isEmpty then [' '] else []
          else held
        let line := c.rest.takeWhile (!isBreak ·)
        let (held, c) := (c.advance line.length).takeBreak
        let (_, nextEmpty, c) ← emptyLines indent (c.left + 1) c 0 []
        let (more, held, last, c) ← blockLines folded indent fuel c held nextEmpty blankNow
        pure (joint ++ empty ++ line ++ more, held, last, c)

/-- A block scalar after its mark, in a block that is indented by `outer`. -/
def block (folded : Bool) (outer : Int) (c : Cursor) : Option (List Char × Cursor) := do
  let (chomping, increment, n) ← blockHeader c.rest
  let c := ((c.advance n).skipWhile isBlank).skipComment
  if !c.atLineEnd then none
  else
    let c := c.takeBreak.2
    let given : Nat := match increment with
      | none => 0
      | some n => if 0 ≤ outer then outer.toNat + n else n
    let (widest, empty, c) ← emptyLines given (c.left + 1) c 0 []
    let indent := if given = 0 then max (max widest (outer + 1).toNat) 1 else given
    let (text, held, empty, c) ← blockLines folded indent (c.left + 1) c [] empty false
    some (match chomping with
      | .strip => (text, c)
      | .clip => (text ++ held, c)
      | .keep => (text ++ held ++ empty, c))

end ApiTypes.Yaml
