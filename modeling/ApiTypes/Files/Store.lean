import ApiTypes.Files.Tree
import ApiTypes.Generation.Generate

/-! # Writing generated files

Files are read and written through a store, which a file tree is one of.  Each generated file is
written on its own: one that cannot be written does not keep the others from being written.

Main definitions: `Store`, `WriteReport`, `writeEach`, `writeFiles`. -/

namespace ApiTypes

/-- Where files are kept. -/
class Store (m : Type → Type) where
  /-- Is there a file or a directory? -/
  present : String → m Bool
  /-- The text of a file. -/
  readText : String → m (Option String)
  /-- Make a directory and those on the way to it; can that be done? -/
  makeDirs : String → m Bool
  /-- Write a text to a file; can that be done? -/
  write : (path text : String) → m Bool

instance : Store (StateM FileTree) where
  present p t := (t.exists p, t)
  readText p t := (t.readText p, t)
  makeDirs p t :=
    let (t, done) := t.makeDirs p
    (done, t)
  write p text t :=
    match t.write p text with
    | some t => (true, t)
    | none => (false, t)

/-- Which files were written, and which could not be. -/
structure WriteReport where
  written : List String := []
  failed : List String := []
  deriving DecidableEq, Repr

/-- Could every file be written? -/
def WriteReport.isSuccess (r : WriteReport) : Bool := r.failed.isEmpty

section

variable {m : Type → Type} [Monad m] [Store m]

/-- Write files below a directory. -/
def writeEach (dir : String) : List GeneratedFile → m (WriteReport × List Notice)
  | [] => return ({}, [])
  | f :: rest => do
    let path := Path.join dir f.path
    let done ← Store.write path f.content
    let (r, notices) ← writeEach dir rest
    if done then return ({ r with written := path :: r.written }, .wrote path :: notices)
    else return ({ r with failed := path :: r.failed }, .notWritten path :: notices)

/-- Write files below a directory, which is made where it is missing; none where it cannot be. -/
def writeFiles (dir : String) (files : List GeneratedFile) :
    m (Option (WriteReport × List Notice)) := do
  if ← Store.makeDirs dir then return some (← writeEach dir files) else return none

end

end ApiTypes
