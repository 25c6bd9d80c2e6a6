import ApiTypes.Generation.Fetched
import ApiTypes.Resolution.Operations
import ApiTypes.Resolution.Schemas

/-! # Generating types

Each description is resolved, bound and written out; the texts of one business, in order, make one
file.

Main definitions: `GenerateError`, `typesOf`, `fileStem`, `GeneratedFile`, `generate`. -/

namespace ApiTypes

/-- Why no types are generated: a description of the business has an invalid reference. -/
inductive GenerateError where
  | resolve (business : String) (cause : InvalidRef)
  deriving DecidableEq, Repr

/-- The message of an error. -/
def GenerateError.message : GenerateError → String
  | .resolve business cause =>
    "failed to resolve document '" ++ business ++ "': " ++ cause.message

/-- Note how the resolution of named schemas went, and which entries are left waiting. -/
def Resolution.notices (r : Resolution) : List Notice :=
  (r.passes.mapIdx fun i p => .retryPass (i + 1) p.still p.waiting) ++
    r.table.entries.filterMap fun (name, s) =>
      let targets := s.type.pendingTargets
      if targets.isEmpty then none else some (.unresolved name targets)

/-- Resolve the named schemas of a description. -/
def notedResolution (schemas : Table Schema) : Noting InvalidRef (Table ResolvedSchema) := do
  let r ← resolveSchemas schemas
  r.notices.forM Noting.note
  return r.table

/-- The operations of a description, with its named schemas. -/
def boundOf (f : Fetched) : Noting InvalidRef (Table ResolvedSchema × List BoundOperation) := do
  let table ← notedResolution f.api.schemas
  let operations ← bindOperations f.api table f.business
  return (table, operations)

/-- The text of the types of a description. -/
def typesOf (policy : Policy) (f : Fetched) : Noting GenerateError String := do
  let name := f.business.name
  let (table, operations) ← ExceptT.adapt (GenerateError.resolve name) (boundOf f)
  Noting.note (.resolved name table.size operations.length)
  Noting.note (.rendered name (interfacesOf name policy operations).length)
  return typesText name policy operations

/-- A file of types. -/
structure GeneratedFile where
  path : String
  content : String
  deriving DecidableEq, Repr

/-- The name of a business as a file is named: separators become hyphens. -/
def fileStem (business : String) : String :=
  String.ofList (business.toList.map fun c => if c == '/' || c == '\\' then '-' else c)

/-- Add a text to those of a business. -/
def addText (texts : Table String) (business text : String) : Table String :=
  texts.insert business (((texts.get? business).getD "") ++ text)

/-- The files of types: one for each business, in the order of their first descriptions. -/
def generate (policy : Policy) (documents : List Fetched) :
    Noting GenerateError (List GeneratedFile) := do
  let texts ← documents.foldlM (fun texts f => do
    return addText texts f.business.name (← typesOf policy f)) Table.empty
  return texts.entries.map fun (business, text) =>
    ⟨fileStem business ++ "." ++ typesExtension, text⟩

end ApiTypes
