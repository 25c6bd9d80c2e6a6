import ApiTypes.Reading.Place
import ApiTypes.Yaml.Node
import ApiTypes.Yaml.Resolution

/-! # Places in YAML

A node of a YAML document with the number of levels it may still have.  Any scalar counts as a text;
a list, a mapping or a structure may also be left empty.  An alias is followed where it is asked
for something; a document of `n` parts allows `100 · n` of that.

Main definitions: `Yaml.maxLevels`, `Yaml.At`, `Yaml.Document.place`, `Yaml.Document.aliasLimit`. -/

namespace ApiTypes.Yaml

/-- How many levels of collections a value may have. -/
def maxLevels : Nat := 128

/-- A node of a document and the number of levels it may have; no node where the text is empty. -/
structure At where
  document : Document
  node : Option (Node Nat)
  levels : Nat

/-- The place of the root. -/
def Document.place (d : Document) : At := ⟨d, d.root, maxLevels⟩

/-- How many aliases may be followed. -/
def Document.aliasLimit (d : Document) : Nat := 100 * d.size

/-- The node itself, or what it is an alias of. -/
def follow (d : Document) : Node Nat → Reading (Node Nat)
  | .alias n => do
    match ← get with
    | 0 => failure
    | left + 1 =>
      set left
      .ofOption (d.target? n)
  | node => pure node

/-- Is there a tag of the document's own that names something? -/
def isNamed (tag : Option Tag) : Bool := (tag.bind Tag.name?).isSome

mutual
/-- The whole value. -/
def data (d : Document) : (levels : Nat) → Node Nat → Reading Data
  | levels, node => do
    match ← follow d node with
    | .scalar _ s => .ofOption s.data?
    | .sequence _ tag items =>
      match levels with
      | 0 => failure
      | levels + 1 => if isNamed tag then failure else .list <$> items.mapM (data d levels)
    | .mapping _ tag entries =>
      match levels with
      | 0 => failure
      | levels + 1 =>
        if isNamed tag then failure
        else .mapping <$> entries.mapM fun e => do
          let k ← data d levels e.1
          let v ← data d levels e.2
          pure (k, v)
    | .alias _ => failure
end

/-- The text of a scalar. -/
def scalarText (d : Document) (node : Node Nat) : Reading String := do
  match ← follow d node with
  | .scalar _ s => pure s.text
  | _ => failure

/-- A literal: the keys of its objects are the texts of any scalars. -/
def literal (d : Document) : (levels : Nat) → Node Nat → Reading Literal
  | levels, node => do
    match ← follow d node with
    | .scalar _ s => .ofOption (s.data?.bind Data.literal?)
    | .sequence _ tag items =>
      match levels with
      | 0 => failure
      | levels + 1 => if isNamed tag then failure else .list <$> items.mapM (literal d levels)
    | .mapping _ tag entries =>
      match levels with
      | 0 => failure
      | levels + 1 =>
        if isNamed tag then failure
        else .ofMembers <$> entries.mapM fun e => do
          let k ← scalarText d e.1
          let v ← literal d levels e.2
          pure (k, v)
    | .alias _ => failure

namespace At

/-- The place with aliases followed. -/
def followed (p : At) : Reading At := do
  match p.node with
  | none => pure p
  | some node =>
    let node ← follow p.document node
    pure { p with node := some node }

/-- A place one level further in. -/
def inner (p : At) (node : Node Nat) : At := { p with node := some node, levels := p.levels - 1 }

/-- Is nothing written where a collection is wanted? -/
def isLeftEmpty (s : Scalar) : Bool := s.text.isEmpty && s.style == .plain

/-- A truth value: a plain scalar, or a literal block with the tag of truth values. -/
def flag? (p : At) : Option Bool :=
  match p.node with
  | some (.scalar _ s) =>
    if s.style = .plain ∨ (s.style = .literal ∧ s.tag = some .boolean) then boolean? s.text.toList
    else none
  | _ => none

/-- Is the place null?  Only a plain scalar can be; where it has the tag of null it has to be. -/
def isNull? (p : At) : Option Bool :=
  match p.node with
  | none => some true
  | some (.scalar _ s) =>
    let cs := s.text.toList
    if s.style ≠ .plain then some false
    else match s.tag with
      | none => some (cs.isEmpty || isNull cs)
      | some tag =>
        if tag ≠ .null then some false
        else if isNull cs then some true else none
  | _ => some false

/-- The items of a sequence. -/
def items? (p : At) : Option (List At) :=
  match p.node with
  | none => some []
  | some (.scalar _ s) => if isLeftEmpty s then some [] else none
  | some (.sequence _ _ items) => if p.levels = 0 then none else some (items.map p.inner)
  | _ => none

/-- The entries of a mapping. -/
def pairs? (p : At) : Option (List (Node Nat × At)) :=
  match p.node with
  | none => some []
  | some (.scalar _ s) => if isLeftEmpty s then some [] else none
  | some (.mapping _ _ entries) =>
    if p.levels = 0 then none else some (entries.map fun e => (e.1, p.inner e.2))
  | _ => none

/-- The entries of a mapping under the texts of their keys. -/
def namedPairs (p : At) : Reading (List (String × At)) := do
  let pairs ← Reading.ofOption p.pairs?
  pairs.mapM fun e => (·, e.2) <$> scalarText p.document e.1

/-- The position of a keyword: the text of a scalar, or the name of a tag of the document's own on
a scalar that is left empty or null. -/
def keyword? (words : List String) (p : At) : Option (Option Nat) :=
  match p.node with
  | some (.scalar _ s) =>
    match s.tag.bind Tag.name? with
    | none => some (words.idxOf? s.text)
    | some name =>
      if s.style = .plain ∧ (s.text.isEmpty ∨ isNull s.text.toList) then some (words.idxOf? name)
      else none
  | _ => none

end At

instance : Place At where
  text p := match p.node with
    | none => failure
    | some node => scalarText p.document node
  flag p := do .ofOption (← p.followed).flag?
  optional p := do
    let p ← p.followed
    pure (if ← Reading.ofOption p.isNull? then none else some p)
  list p := do .ofOption (← p.followed).items?
  entries p := do (← p.followed).namedPairs
  fields names _ p := do
    .ofOption (Fields.select? names (← (← p.followed).namedPairs))
  keyword words p := do .ofOption ((← p.followed).keyword? words)
  literal p := match p.node with
    | none => failure
    | some node => literal p.document p.levels node
  data p := match p.node with
    | none => failure
    | some node => data p.document p.levels node

end ApiTypes.Yaml
