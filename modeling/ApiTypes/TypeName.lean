import ApiTypes.Api.Operation
import ApiTypes.Text.Pascal

/-! # Names of types

The name of the type of one side of an operation: the method, the segments of its path, the side,
the suffix of the business and its version, each starting with a capital.

Main definitions: `Business`, `Role`, `segments`, `segmentName`, `typeName`. -/

namespace ApiTypes

/-- Whose API is described: its name, its version, and what its type names end in. -/
structure Business where
  name : String := "default"
  version : String := "v1"
  suffix : Option String := none
  deriving DecidableEq, Repr

/-- The version that type names do not mention. -/
def baselineVersion : String := "v1"

/-- A side of an operation. -/
inductive Role where
  | request
  | response
  deriving DecidableEq, Repr

/-- What the name of a type of the side ends in. -/
def Role.suffix : Role → List Char
  | .request => "ReqType".toList
  | .response => "ResType".toList

namespace TypeName

/-- A segment without the braces around it. -/
def bare (segment : List Char) : List Char :=
  ((segment.dropWhile (· == '{')).reverse.dropWhile (· == '}')).reverse

/-- The segments of a path that its types are named for, without braces. -/
def segments (url : List Char) : List (List Char) :=
  ((Text.splitWhere (· == '/') url).filter fun s => !s.isEmpty && s != "api".toList).map bare

/-- The name of a segment: in Pascal case where it has hyphens or underscores, else with a capital
in front. -/
def segmentName (segment : List Char) : List Char :=
  if segment.contains '_' || segment.contains '-' then Text.pascal segment
  else Text.capitalize segment

/-- The method as names start with it. -/
def methodName (m : Method) : List Char := Text.capitalize (m.name.toList.map Char.toLower)

/-- The version as names end in it; nothing for the baseline, in either case. -/
def versionName (version : String) : List Char :=
  if version.toList.map Char.toLower = baselineVersion.toList.map Char.toLower then []
  else Text.capitalize version.toList

/-- The characters of a type's name. -/
def chars (m : Method) (url : String) (role : Role) (b : Business) : List Char :=
  methodName m ++ (segments url.toList).flatMap segmentName ++ role.suffix ++
    ((b.suffix.map String.toList).getD []) ++ versionName b.version

end TypeName

/-- The name of the type of one side of an operation. -/
def typeName (m : Method) (url : String) (role : Role) (b : Business) : String :=
  String.ofList (TypeName.chars m url role b)

end ApiTypes
