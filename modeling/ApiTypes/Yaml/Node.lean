import ApiTypes.Yaml.Tag
import ApiTypes.Yaml.Token

/-! # YAML nodes

The tree that YAML text denotes, with its anchors and aliases left in place.  While the tree is
built, anchors are names; afterwards they are numbers.  An anchor's number is the count of distinct
anchor names met before it, so a name that is set again takes a number that a later name may take
too; an alias stands for the last node that has its number.

Main definitions: `Scalar`, `Node`, `Node.numbered?`, `Node.size`, `Document`, `Document.target?`. -/

namespace ApiTypes.Yaml

/-- A scalar as it is written. -/
structure Scalar where
  text : String
  style : ScalarStyle
  tag : Option Tag

/-- A node whose anchors are of type `α`. -/
inductive Node (α : Type) where
  | scalar (anchor : Option α) (scalar : Scalar)
  | sequence (anchor : Option α) (tag : Option Tag) (items : List (Node α))
  | mapping (anchor : Option α) (tag : Option Tag) (entries : List (Node α × Node α))
  | alias (target : α)

namespace Node

/-! ### Numbering anchors -/

/-- The names of anchors with their numbers, the last set first. -/
abbrev Names := List (String × Nat)

/-- Give a name the number of distinct names known. -/
def Names.define (names : Names) (name : String) : Names :=
  (name, names.length) :: names.filter (·.1 != name)

/-- Give the anchor of a node its number, where it has one. -/
def numberAnchor (names : Names) : Option String → Option Nat × Names
  | none => (none, names)
  | some name => (some names.length, names.define name)

mutual
/-- The node with numbers for names; none where an alias names no anchor before it. -/
def numbered? (names : Names) : Node String → Option (Node Nat × Names)
  | .scalar anchor s =>
    let (anchor, names) := numberAnchor names anchor
    some (.scalar anchor s, names)
  | .sequence anchor tag items =>
    let (anchor, names) := numberAnchor names anchor
    (numberedList? names items).map fun (items, names) => (.sequence anchor tag items, names)
  | .mapping anchor tag entries =>
    let (anchor, names) := numberAnchor names anchor
    (numberedEntries? names entries).map fun (entries, names) =>
      (.mapping anchor tag entries, names)
  | .alias name => (names.lookup name).map fun n => (.alias n, names)

/-- The nodes with numbers for names. -/
def numberedList? (names : Names) : List (Node String) → Option (List (Node Nat) × Names)
  | [] => some ([], names)
  | a :: rest => do
    let (a, names) ← numbered? names a
    let (rest, names) ← numberedList? names rest
    pure (a :: rest, names)

/-- The entries with numbers for names. -/
def numberedEntries? (names : Names) :
    List (Node String × Node String) → Option (List (Node Nat × Node Nat) × Names)
  | [] => some ([], names)
  | (k, v) :: rest => do
    let (k, names) ← numbered? names k
    let (v, names) ← numbered? names v
    let (rest, names) ← numberedEntries? names rest
    pure ((k, v) :: rest, names)
end

/-! ### Size and anchored nodes -/

variable {α : Type}

mutual
/-- The number of scalars, aliases, and starts and ends of collections. -/
def size : Node α → Nat
  | .scalar .. | .alias _ => 1
  | .sequence _ _ items => sizeOfList items + 2
  | .mapping _ _ entries => sizeOfEntries entries + 2

/-- The size of nodes together. -/
def sizeOfList : List (Node α) → Nat
  | [] => 0
  | a :: rest => size a + sizeOfList rest

/-- The size of entries together. -/
def sizeOfEntries : List (Node α × Node α) → Nat
  | [] => 0
  | (k, v) :: rest => size k + size v + sizeOfEntries rest
end

mutual
/-- The anchored nodes with their anchors, in the order of their starts. -/
def anchored : Node α → List (α × Node α)
  | .scalar (some a) s => [(a, .scalar (some a) s)]
  | .scalar none _ | .alias _ => []
  | .sequence none _ items => anchoredList items
  | .sequence (some a) tag items => (a, .sequence (some a) tag items) :: anchoredList items
  | .mapping none _ entries => anchoredEntries entries
  | .mapping (some a) tag entries => (a, .mapping (some a) tag entries) :: anchoredEntries entries

/-- The anchored nodes among nodes. -/
def anchoredList : List (Node α) → List (α × Node α)
  | [] => []
  | a :: rest => anchored a ++ anchoredList rest

/-- The anchored nodes among entries. -/
def anchoredEntries : List (Node α × Node α) → List (α × Node α)
  | [] => []
  | (k, v) :: rest => anchored k ++ anchored v ++ anchoredEntries rest
end

end Node

/-- The content of a YAML text: its root where it has one, its anchored nodes, the last first, and
the size of the root. -/
structure Document where
  root : Option (Node Nat)
  anchors : List (Nat × Node Nat)
  size : Nat

/-- The document with the root given; none where an alias names no anchor before it. -/
def Document.ofRoot? : Option (Node String) → Option Document
  | none => some ⟨none, [], 0⟩
  | some root =>
    (root.numbered? []).map fun (root, _) => ⟨some root, root.anchored.reverse, root.size⟩

/-- The node that an alias stands for. -/
def Document.target? (d : Document) (n : Nat) : Option (Node Nat) := d.anchors.lookup n

end ApiTypes.Yaml
