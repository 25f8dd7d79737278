import AliasGate.Failure
import AliasGate.Json.Reader
import AliasGate.Query.Argument
import AliasGate.Transformation.Basic

/-!
# Requests

A request as it was transmitted: path and query are still encoded. What it asks for is read off
the query on demand.
-/

namespace AliasGate.Http

/-- The parts of a path that a route gives a name. -/
structure RouteParams where
  user : Option Text := none
  image : Option Text := none
  id : Option Text := none
  deriving DecidableEq, Repr

namespace RouteParams

/-- The user of the path; empty if the route has none. -/
def givenUser (p : RouteParams) : Text := p.user.getD []

/-- The image of the path; empty if the route has none. -/
def givenImage (p : RouteParams) : Text := p.image.getD []

/-- The id of the path; empty if the route has none. -/
def givenId (p : RouteParams) : Text := p.id.getD []

end RouteParams

/-- A request. Header names are in lower case; the query lacks its question mark. -/
structure Request where
  method : Text
  scheme : Text
  host : Text
  path : Text
  query : Text
  headers : Keyed Text Text
  route : RouteParams
  body : Bytes
  /-- How deep the body may nest where it is read. -/
  room : Nat
  deriving DecidableEq, Repr

namespace Request

/-- The header that names a public key. -/
def publicKeyHeader : Text := "x-imbo-publickey".toList

/-- The query argument that names a public key. -/
def publicKeyArgument : Text := "publicKey".toList

/-- The URL as transmitted. -/
def url (r : Request) : Text :=
  r.scheme ++ "://".toList ++ r.host ++ r.path ++
    match r.query with
    | [] => []
    | query => '?' :: query

/-- The names and values of the query. -/
def queryPairs (r : Request) : List (Text × Text) := Query.form r.query

/-- The value of the first query argument with a name. -/
def argument? (r : Request) (name : Text) : Option Text := Query.first? name r.queryPairs

/-- The transformations that the query asks for, in order. -/
def transformations (r : Request) : List Transformation := Transformation.ofQuery r.queryPairs

/-- The names of those transformations. -/
def transformationNames (r : Request) : List Text := r.transformations.map (·.name)

/-- A text that is there and not empty. -/
def nonempty? : Option Text → Option Text
  | some [] => none
  | s => s

/-- The public key: from the query or else from the header, unless it is empty there, and otherwise
the user of the route. -/
def publicKey (r : Request) : Option Text :=
  nonempty? (r.argument? publicKeyArgument) <|> nonempty? (r.headers.get? publicKeyHeader) <|>
    r.route.user

/-- The value of the body. -/
def json (r : Request) : Except Fault Json :=
  match r.body with
  | [] => .error (.failure .missingJson)
  | body =>
    match Json.readDocument (.received r.room) body with
    | .ok j => .ok j
    | .error .malformed => .error (.failure .invalidJson)
    | .error (.tooDeep container) => .error (.defect (.tooDeep container))

end Request

end AliasGate.Http
