import ApiTypes.Files.Path

/-! # File trees

Directories and files by their path from the root, and the directory in which paths start that do
not start at the root.  The path to an entry goes through directories only.

Main definitions: `FileContent`, `Entry`, `FileTree`, `FileTree.locate`, `FileTree.readText`,
`FileTree.write`, `FileTree.makeDirs`. -/

namespace ApiTypes

/-- What a file holds. -/
inductive FileContent where
  | text (value : String)
  /-- Bytes that are no text. -/
  | binary (bytes : List UInt8)
  deriving DecidableEq

/-- A file or a directory. -/
inductive Entry where
  | file (content : FileContent)
  | directory
  deriving DecidableEq

/-- The files and directories below the root, each by the names on the way to it. -/
structure FileTree where
  entries : List (List String × Entry) := []
  current : List String := []

namespace FileTree

/-! ### Entries -/

/-- The entry of a way from the root; the root is a directory. -/
def get? (t : FileTree) (way : List String) : Option Entry :=
  if way.isEmpty then some .directory else t.entries.lookup way

/-- Is there a directory? -/
def isDirectory (t : FileTree) (way : List String) : Bool := t.get? way == some .directory

/-- Set an entry in a list of entries: in its place where it has one, else at the end. -/
def put (way : List String) (e : Entry) :
    List (List String × Entry) → List (List String × Entry)
  | [] => [(way, e)]
  | (w, f) :: rest => if w = way then (way, e) :: rest else (w, f) :: put way e rest

/-- The tree with the entry set. -/
def set (t : FileTree) (way : List String) (e : Entry) : FileTree :=
  { t with entries := put way e t.entries }

/-- The entries below the current directory, by the names on the way from there. -/
def below (t : FileTree) : List (List String × Entry) :=
  t.entries.filterMap fun (way, e) =>
    if t.current.isPrefixOf way && way.length != t.current.length then
      some (way.drop t.current.length, e)
    else none

/-! ### Paths -/

/-- The longest name, in bytes. -/
def maxNameSize : Nat := 255

/-- Can a name be used at all? -/
def isUsable (name : String) : Bool := name.utf8ByteSize ≤ maxNameSize

/-- Can a path be used at all?  None holds a NUL. -/
def isUsablePath (p : String) : Bool := !p.toList.contains '\x00'

/-- Where a path starts. -/
def start (t : FileTree) (p : String) : List String := if Path.isAbsolute p then [] else t.current

/-- One step on a way: to a name, to the directory above, or nowhere. -/
def step (way : List String) (segment : String) : List String :=
  if segment = "." then way
  else if segment = ".." then way.dropLast
  else way ++ [segment]

/-- Where segments lead from a directory; all but the last lead to directories. -/
def walk (t : FileTree) (way : List String) : List String → Option (List String)
  | [] => some way
  | s :: rest =>
    if t.isDirectory way && isUsable s then walk t (step way s) rest else none

/-- Where a path leads, where the way to it exists; what is named last may be missing. -/
def locate (t : FileTree) (p : String) : Option (List String) :=
  if isUsablePath p && !p.isEmpty then t.walk (t.start p) (Path.segments p) else none

/-- Does the path lead to a file or a directory? -/
def «exists» (t : FileTree) (p : String) : Bool := ((t.locate p).bind t.get?).isSome

/-! ### Reading and writing -/

/-- The text of the file at a path. -/
def readText (t : FileTree) (p : String) : Option String :=
  match (t.locate p).bind t.get? with
  | some (.file (.text s)) => some s
  | _ => none

/-- Does the path end in a name, and not in a step to a directory? -/
def endsInName (p : String) : Bool :=
  match (Path.segments p).getLast? with
  | some s => s != "." && s != ".."
  | none => false

/-- The tree with a text written to the file at a path; none where that cannot be done. -/
def write (t : FileTree) (p text : String) : Option FileTree :=
  if !endsInName p then none
  else
    (t.locate p).bind fun way =>
      if t.isDirectory way then none else some (t.set way (.file (.text text)))

/-- Is there nothing left to name but the directory itself?  What ends so names no directory that
could be made. -/
def onlyItself (segments : List String) : Bool := !segments.isEmpty && segments.all (· == ".")

/-- Make the directories that segments lead through, as far as that can be done, and whether all
of it could be done. -/
def makeWay (t : FileTree) (way : List String) : List String → FileTree × Bool
  | [] => (t, true)
  | s :: rest =>
    if !isUsable s then (t, false)
    else
      let way := step way s
      match t.get? way with
      | some .directory => makeWay t way rest
      | some (.file _) => (t, false)
      | none => if onlyItself rest then (t, false) else makeWay (t.set way .directory) way rest

/-- Make the directory at a path, and those on the way to it. -/
def makeDirs (t : FileTree) (p : String) : FileTree × Bool :=
  if isUsablePath p then t.makeWay (t.start p) (Path.names p) else (t, false)

end FileTree

end ApiTypes
