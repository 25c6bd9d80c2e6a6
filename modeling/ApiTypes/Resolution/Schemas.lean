import ApiTypes.Resolution.Expansion
import ApiTypes.Resolution.Graph

/-! # Resolving named schemas

Every named schema is expanded in the order of declaration, references being looked up in the table
built so far.  An entry that meets a declared schema without entry waits, and is expanded again in
retry passes until none waits, a pass changes nothing, or sixteen passes are made.  Inside a cycle
of references the target is expanded in place instead, at most eight names deep, and a reference
back to a name on the way becomes a record.

Main definitions: `Building`, `Building.resolveAt`, `Building.entry`, `Progress`, `firstPass`,
`retryPass`, `retry`, `resolveSchemas`. -/

namespace ApiTypes

/-- The greatest number of retry passes. -/
def maxRetryPasses : Nat := 16

/-- How many names may be on the way of an expansion. -/
def maxInlineDepth : Nat := 8

/-- The declared schemas, their references, and the table so far. -/
structure Building where
  schemas : Table Schema
  graph : Graph
  table : Table ResolvedSchema

namespace Building

/-- What the table says about a declared name.  It has to be asked again where it has no entry, or
one that waits for a declared name. -/
def lookUp (b : Building) (name : String) : Expansion :=
  match b.table.get? name with
  | some target =>
    { type := target.type, deferred := target.type.pendingTargets.any b.schemas.contains }
  | none => { type := .pending name, deferred := true }

/-- The description of a name: that of its entry, else the one written at its declaration. -/
def description (b : Building) (name : String) : Option String :=
  match b.table.get? name with
  | some target => target.description
  | none =>
    match b.schemas.get? name with
    | some (.inline shape) => shape.description.bind DocText.cleanDescription
    | _ => none

/-- What a name becomes on the way along a path, which may grow by so many more names. -/
def resolveAt (b : Building) : (room : Nat) → (path : List String) → String →
    Except InvalidRef Expansion
  | room, path, name =>
    if path.contains name then return { type := .record }
    else match b.schemas.get? name with
      | none => return { type := .pending name }
      | some target =>
        if !b.graph.reachesAny name path then return b.lookUp name
        else match room with
          | 0 => return { type := .record }
          | room + 1 => expand ⟨b.resolveAt room (path ++ [name]), b.description⟩ target

/-- The lookup for the entry of a name. -/
def lookup (b : Building) (name : String) : Lookup :=
  ⟨b.resolveAt (maxInlineDepth - 1) [name], b.description⟩

/-- The entry of a name, and whether it waits. -/
def entry (b : Building) (name : String) (s : Schema) :
    Except InvalidRef (ResolvedSchema × Bool) := do
  let e ← expand (b.lookup name) s
  return (⟨e.type, describe (b.lookup name) s⟩, e.deferred)

end Building

/-! ### Passes -/

/-- The table so far, and the names whose entries wait, in the order of declaration. -/
structure Progress where
  table : Table ResolvedSchema := .empty
  pending : List String := []

/-- The first pass: every declared name gets an entry. -/
def firstPass (schemas : Table Schema) (graph : Graph) : Except InvalidRef Progress :=
  schemas.entries.foldlM (fun p (name, s) => do
    let (resolved, deferred) ← Building.entry ⟨schemas, graph, p.table⟩ name s
    return {
      table := p.table.insert name resolved
      pending := if deferred then p.pending ++ [name] else p.pending }) {}

/-- A pass over the names that wait, and whether it changed an entry. -/
def retryPass (schemas : Table Schema) (graph : Graph) (before : Progress) :
    Except InvalidRef (Progress × Bool) :=
  (schemas.entries.filter fun e => before.pending.contains e.1).foldlM
    (fun (p, changed) (name, s) => do
      let (resolved, deferred) ← Building.entry ⟨schemas, graph, p.table⟩ name s
      let pending := if deferred then p.pending ++ [name] else p.pending
      if p.table.get? name = some resolved then return ({ p with pending }, changed)
      else return ({ table := p.table.insert name resolved, pending }, true))
    ({ table := before.table }, false)

/-- How many entries waited before a pass, and how many still do. -/
structure PassReport where
  waiting : Nat
  still : Nat
  deriving DecidableEq, Repr

/-- At most so many retry passes, until no entry waits or a pass changes nothing. -/
def retry (schemas : Table Schema) (graph : Graph) :
    Nat → Progress → Except InvalidRef (Progress × List PassReport)
  | 0, p => return (p, [])
  | passes + 1, p =>
    if p.pending.isEmpty then return (p, [])
    else do
      let (q, changed) ← retryPass schemas graph p
      let report : PassReport := ⟨p.pending.length, q.pending.length⟩
      if !changed && q.pending == p.pending then return (q, [report])
      else
        let (r, reports) ← retry schemas graph passes q
        return (r, report :: reports)

/-- The resolved schemas, and how the retry passes went. -/
structure Resolution where
  table : Table ResolvedSchema
  passes : List PassReport

/-- Resolve named schemas, or find their first invalid reference. -/
def resolveSchemas (schemas : Table Schema) : Except InvalidRef Resolution := do
  let graph ← Graph.ofSchemas schemas
  let first ← firstPass schemas graph
  let (last, passes) ← retry schemas graph maxRetryPasses first
  return ⟨last.table, passes⟩

end ApiTypes
