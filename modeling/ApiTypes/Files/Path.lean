import ApiTypes.Text.Blank

/-! # File paths

Paths as text: names between slashes, from the root where a slash stands in front.

Main definitions: `Path.isAbsolute`, `Path.names`, `Path.segments`, `Path.join`, `Path.tidied`. -/

namespace ApiTypes.Path

/-- Does the path start at the root? -/
def isAbsolute (p : String) : Bool := p.toList.head? == some '/'

/-- The names between the slashes of a path. -/
def names (p : String) : List String :=
  ((Text.splitWhere (· == '/') p.toList).map String.ofList).filter (!·.isEmpty)

/-- The names of a path; a slash at its end counts as one more, the name of the directory itself. -/
def segments (p : String) : List String :=
  if p.toList.getLast? == some '/' then names p ++ ["."] else names p

/-- A path that starts at the end of another. -/
def join (base p : String) : String :=
  if isAbsolute p then p
  else if base.isEmpty || base.toList.getLast? == some '/' then base ++ p
  else base ++ "/" ++ p

/-- Does the segment name the directory it stands in? -/
def isIdle (segment : List Char) : Bool := segment.isEmpty || segment == ['.']

/-- The path without segments at either end that name the directory they stand in. -/
def tidied (p : String) : String :=
  let pieces := (Text.splitWhere (· == '/') p.toList).dropWhile isIdle
  String.ofList (['/'].intercalate (pieces.reverse.dropWhile isIdle).reverse)

end ApiTypes.Path
