import ApiTypes.Config

/-! # Fetched descriptions

A description with the business it belongs to: its server may name the business and its version, and
otherwise the description does.

Main definitions: `FetchError`, `versionToken`, `Fetched`, `Fetched.ofServer`, `fetchedOf`. -/

namespace ApiTypes

/-- Why a description could not be had. -/
inductive FetchError where
  | transport (url cause : String)
  | read (path : String)
  | parse (url : String) (cause : ReadError)
  deriving DecidableEq, Repr

/-- The message of an error. -/
def FetchError.message : FetchError → String
  | .transport url cause => "failed to fetch " ++ url ++ ": " ++ cause
  | .read path => "cannot read " ++ path
  | .parse url cause => "invalid document from " ++ url ++ ": " ++ cause.message

/-- The version token of a declared version: its first run of digits without leading zeros, or the
baseline where that leaves nothing. -/
def versionToken (declared : String) : String :=
  let digits := (declared.toList.dropWhile fun c => !c.isDigit).takeWhile Char.isDigit
  let major := digits.dropWhile (· == '0')
  if major.isEmpty then baselineVersion else String.ofList ('v' :: major)

/-- A description with its business. -/
structure Fetched where
  business : Business
  api : Api

namespace Fetched

/-- The name of a business: that of the server unless it is blank, else the title, else `default`. -/
def businessName (server : Server) (api : Api) : String :=
  match server.name.bind fun n => if (Text.trim n.toList).isEmpty then none else some n with
  | some name => name
  | none =>
    let title := Text.trim api.info.title.toList
    if title.isEmpty then "default" else String.ofList title

/-- The description fetched from a server. -/
def ofServer (server : Server) (api : Api) : Fetched where
  business := {
    name := businessName server api
    version := server.version.getD (versionToken api.info.version)
    suffix := server.suffix }
  api := api

end Fetched

/-- The descriptions that could be had, in the order of their servers. -/
def fetchedOf {ε : Type} (results : List (Server × Except FetchError Api)) :
    Noting ε (List Fetched) :=
  results.filterMapM fun (server, result) => do
    match result with
    | .ok api =>
      let f := Fetched.ofServer server api
      Noting.note (.fetched server.url f.business.name f.business.version)
      return some f
    | .error e =>
      Noting.note (.skipped server.url e.message)
      return none

end ApiTypes
