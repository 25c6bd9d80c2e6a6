import ApiTypes.Yaml.Node
import ApiTypes.Yaml.Token.Scanner

/-! # Nodes from tokens

A node is read from the tokens in front, with what follows it; an empty scalar stands wherever a
node may be left out.  A text holds one document at most.

Main definitions: `Handles`, `Properties`, `node`, `Document.ofText?`. -/

namespace ApiTypes.Yaml

/-! ### Properties -/

/-- What tag handles stand for. -/
abbrev Handles := List (String × List UInt8)

/-- The handles of every document. -/
def Handles.usual : Handles := [("!", [Tag.octet '!']), ("!!", Tag.coreBase)]

/-- The tag of a handle and a suffix; none where the handle is not declared. -/
def Handles.tag? (handles : Handles) (handle : String) (suffix : List UInt8) : Option Tag :=
  if handle.isEmpty then some (.ofOctets suffix)
  else (handles.lookup handle).map fun base => .ofOctets (base ++ suffix)

/-- The anchor and the tag of a node. -/
structure Properties where
  anchor : Option String := none
  tag : Option Tag := none

/-- Has the node neither anchor nor tag? -/
def Properties.isEmpty (p : Properties) : Bool := p.anchor.isNone && p.tag.isNone

/-- The properties in front: an anchor and a tag at most, in either order. -/
def properties (handles : Handles) : List Token → Option (Properties × List Token)
  | .anchor a :: .tag h s :: rest => (handles.tag? h s).map fun t => (⟨some a, some t⟩, rest)
  | .tag h s :: .anchor a :: rest => (handles.tag? h s).map fun t => (⟨some a, some t⟩, rest)
  | .anchor a :: rest => some (⟨some a, none⟩, rest)
  | .tag h s :: rest => (handles.tag? h s).map fun t => (⟨none, some t⟩, rest)
  | ts => some ({}, ts)

/-- The node that stands where none is written. -/
def emptyNode (p : Properties := {}) : Node String :=
  .scalar p.anchor ⟨"", .plain, p.tag⟩

/-! ### Nodes -/

/-- Is the token one at which a node of a block mapping is left out? -/
def endsBlockNode : List Token → Bool
  | .key :: _ | .value :: _ | .blockEnd :: _ => true
  | _ => false

/-- Is the token one at which a value of a flow collection is left out? -/
def endsFlowValue (close : Token) : List Token → Bool
  | .flowEntry :: _ => true
  | t :: _ => t == close
  | [] => false

mutual
/-- A node.  A block collection stands only where `block` allows it, and a block sequence without
tokens that open and close it only where `bare` does. -/
def node (handles : Handles) :
    Nat → (block bare : Bool) → List Token → Option (Node String × List Token)
  | 0, _, _, _ => none
  | _, _, _, .alias name :: rest => some (.alias name, rest)
  | fuel + 1, block, bare, ts => do
    let (p, ts) ← properties handles ts
    match ts with
    | .blockEntry :: _ =>
      if bare then
        let (items, rest) ← bareItems handles fuel ts
        pure (.sequence p.anchor p.tag items, rest)
      else if p.isEmpty then none else pure (emptyNode p, ts)
    | .scalar text style :: rest => pure (.scalar p.anchor ⟨text, style, p.tag⟩, rest)
    | .flowSequenceStart :: rest =>
      let (items, rest) ← flowItems handles fuel true rest
      pure (.sequence p.anchor p.tag items, rest)
    | .flowMappingStart :: rest =>
      let (entries, rest) ← flowEntries handles fuel true rest
      pure (.mapping p.anchor p.tag entries, rest)
    | .blockSequenceStart :: rest =>
      if block then
        let (items, rest) ← blockItems handles fuel rest
        pure (.sequence p.anchor p.tag items, rest)
      else if p.isEmpty then none else pure (emptyNode p, ts)
    | .blockMappingStart :: rest =>
      if block then
        let (entries, rest) ← blockEntries handles fuel rest
        pure (.mapping p.anchor p.tag entries, rest)
      else if p.isEmpty then none else pure (emptyNode p, ts)
    | _ => if p.isEmpty then none else pure (emptyNode p, ts)

/-- The items of a block sequence up to its end. -/
def blockItems (handles : Handles) :
    Nat → List Token → Option (List (Node String) × List Token)
  | 0, _ => none
  | fuel + 1, .blockEntry :: ts => do
    let (item, ts) ← match ts with
      | .blockEntry :: _ | .blockEnd :: _ => some (emptyNode, ts)
      | _ => node handles fuel true false ts
    let (items, ts) ← blockItems handles fuel ts
    pure (item :: items, ts)
  | _, .blockEnd :: ts => some ([], ts)
  | _, _ => none

/-- The items of a block sequence at the indentation of the mapping around it. -/
def bareItems (handles : Handles) :
    Nat → List Token → Option (List (Node String) × List Token)
  | 0, _ => none
  | fuel + 1, .blockEntry :: ts => do
    let (item, ts) ← match ts with
      | .blockEntry :: _ | .key :: _ | .value :: _ | .blockEnd :: _ => some (emptyNode, ts)
      | _ => node handles fuel true false ts
    let (items, ts) ← bareItems handles fuel ts
    pure (item :: items, ts)
  | _, ts => some ([], ts)

/-- The entries of a block mapping up to its end. -/
def blockEntries (handles : Handles) :
    Nat → List Token → Option (List (Node String × Node String) × List Token)
  | 0, _ => none
  | fuel + 1, .key :: ts => do
    let (key, ts) ←
      (if endsBlockNode ts then some (emptyNode, ts) else node handles fuel true true ts)
    let (value, ts) ← (match ts with
      | .value :: ts =>
        if endsBlockNode ts then some (emptyNode, ts) else node handles fuel true true ts
      | _ => some (emptyNode, ts))
    let (entries, ts) ← blockEntries handles fuel ts
    pure ((key, value) :: entries, ts)
  | _, .blockEnd :: ts => some ([], ts)
  | _, _ => none

/-- The items of a flow sequence up to its end; a comma stands before all but the first.  A key
makes an item a mapping of one entry. -/
def flowItems (handles : Handles) :
    Nat → (first : Bool) → List Token → Option (List (Node String) × List Token)
  | 0, _, _ => none
  | _, _, .flowSequenceEnd :: ts => some ([], ts)
  | fuel + 1, first, ts => do
    let ts ← match first, ts with
      | true, ts => some ts
      | false, .flowEntry :: ts => some ts
      | false, _ => none
    match ts with
    | .flowSequenceEnd :: ts => pure ([], ts)
    | .key :: ts =>
      let (entry, ts) ← flowPair handles fuel ts
      let (items, ts) ← flowItems handles fuel false ts
      pure (.mapping none none [entry] :: items, ts)
    | _ =>
      let (item, ts) ← node handles fuel false false ts
      let (items, ts) ← flowItems handles fuel false ts
      pure (item :: items, ts)

/-- The entry that is an item of a flow sequence.  Where its key is left out, the token that shows
it is passed over. -/
def flowPair (handles : Handles) :
    Nat → List Token → Option ((Node String × Node String) × List Token)
  | 0, _ => none
  | fuel + 1, ts => do
    let (key, ts) ← match ts with
      | .value :: rest | .flowEntry :: rest | .flowSequenceEnd :: rest => some (emptyNode, rest)
      | _ => node handles fuel false false ts
    match ts with
    | .value :: rest =>
      let (value, ts) ← (if endsFlowValue .flowSequenceEnd rest then some (emptyNode, rest)
        else node handles fuel false false rest)
      pure ((key, value), ts)
    | _ => pure ((key, emptyNode), ts)

/-- The entries of a flow mapping up to its end; a comma stands before all but the first. -/
def flowEntries (handles : Handles) :
    Nat → (first : Bool) → List Token → Option (List (Node String × Node String) × List Token)
  | 0, _, _ => none
  | _, _, .flowMappingEnd :: ts => some ([], ts)
  | fuel + 1, first, ts => do
    let ts ← match first, ts with
      | true, ts => some ts
      | false, .flowEntry :: ts => some ts
      | false, _ => none
    match ts with
    | .flowMappingEnd :: ts => pure ([], ts)
    | .key :: ts =>
      let (key, ts) ← (match ts with
        | .value :: _ => some (emptyNode, ts)
        | _ =>
          if endsFlowValue .flowMappingEnd ts then some (emptyNode, ts)
          else node handles fuel false false ts)
      let (value, ts) ← flowValue handles fuel ts
      let (entries, ts) ← flowEntries handles fuel false ts
      pure ((key, value) :: entries, ts)
    | _ =>
      let (key, ts) ← node handles fuel false false ts
      let (entries, ts) ← flowEntries handles fuel false ts
      pure ((key, emptyNode) :: entries, ts)

/-- The value of an entry of a flow mapping. -/
def flowValue (handles : Handles) : Nat → List Token → Option (Node String × List Token)
  | 0, _ => none
  | fuel + 1, .value :: ts =>
    if endsFlowValue .flowMappingEnd ts then some (emptyNode, ts)
    else node handles fuel false false ts
  | _, ts => some (emptyNode, ts)
end

/-! ### Documents -/

/-- The directives before a document: a version of 1.1 or 1.2 at most once, and each handle at most
once. -/
def directives (versioned : Bool) (handles : Handles) :
    List Token → Option (Bool × Handles × List Token)
  | .versionDirective major minor :: ts =>
    if versioned || major ≠ 1 || (minor ≠ 1 && minor ≠ 2) then none
    else directives true handles ts
  | .tagDirective handle base :: ts =>
    if (handles.lookup handle).isSome then none
    else directives versioned ((handle, base) :: handles) ts
  | ts => some (versioned || !handles.isEmpty, handles, ts)

/-- Does the document have no content here? -/
def endsDocument : List Token → Bool
  | [] | .versionDirective .. :: _ | .tagDirective .. :: _ | .documentStart :: _
  | .documentEnd :: _ => true
  | _ => false

/-- Do the tokens hold no further document? -/
def noMore : List Token → Bool
  | [] => true
  | .documentEnd :: ts => noMore ts
  | _ => false

/-- The root of the one document that the tokens hold, where they hold one.  Directives need a
document marker after them. -/
def rootOfTokens (ts : List Token) : Option (Option (Node String)) :=
  if ts.isEmpty then some none
  else do
    let (declared, handles, rest) ← directives false [] ts
    let handles := handles ++ Handles.usual
    let fuel := 4 * ts.length + 4
    let (root, rest) ← match rest with
      | .documentStart :: rest =>
        if endsDocument rest then some (emptyNode, rest) else node handles fuel true false rest
      | _ => if declared then none else node handles fuel true false rest
    if noMore rest then some (some root) else none

/-- The document of a text; none where it is not well formed. -/
def Document.ofChars? (s : List Char) : Option Document := do
  let ts ← Token.ofText? s
  let root ← rootOfTokens ts
  Document.ofRoot? root

/-- The document of a text; none where it is not well formed. -/
def Document.ofText? (s : String) : Option Document := Document.ofChars? s.toList

end ApiTypes.Yaml
