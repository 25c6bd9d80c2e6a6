import ApiTypes.Resolution.Reference
import ApiTypes.Table

/-! # The graph of references

A named schema has an edge to each name that it refers to, declared or not.  A name reaches those at
the ends of paths of one edge or more.

Main definitions: `Graph`, `Graph.explore`, `Graph.reachesAny`, `Graph.ofSchemas`. -/

namespace ApiTypes

/-- Which names each declared name refers to. -/
abbrev Edges := List (String × List String)

/-- The names that a name refers to. -/
def Edges.targets (e : Edges) (name : String) : List String := (e.lookup name).getD []

/-- The number of edges. -/
def Edges.count (e : Edges) : Nat := e.foldr (fun t n => t.2.length + n) 0

namespace Graph

/-- The names seen from the names on the stack, besides those already seen.  Every name adds its
targets once, so a step for each edge and for each name on the stack is enough. -/
def explore (e : Edges) : Nat → (stack seen : List String) → List String
  | 0, _, seen => seen
  | _, [], seen => seen
  | steps + 1, name :: stack, seen =>
    if seen.contains name then explore e steps stack seen
    else explore e steps (e.targets name ++ stack) (name :: seen)

/-- The names at the ends of paths of one edge or more. -/
def reachable (e : Edges) (name : String) : List String :=
  explore e (e.count + (e.targets name).length) (e.targets name) []

end Graph

/-- The edges between names, and what each declared name reaches. -/
structure Graph where
  edges : Edges
  reach : List (String × List String)

namespace Graph

/-- The graph of edges. -/
def ofEdges (e : Edges) : Graph := ⟨e, e.map fun t => (t.1, reachable e t.1)⟩

/-- Does a path of one edge or more lead from the name to one of the others? -/
def reachesAny (g : Graph) (name : String) (others : List String) : Bool :=
  match g.reach.lookup name with
  | some found => others.any found.contains
  | none => false

/-- The graph of named schemas, or their first invalid reference. -/
def ofSchemas (schemas : Table Schema) : Except InvalidRef Graph := do
  let edges ← schemas.entries.mapM fun e => do return (e.1, ← e.2.references)
  return ofEdges edges

end Graph

end ApiTypes
