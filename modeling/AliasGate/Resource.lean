import AliasGate.Failure
import AliasGate.Http.Method

/-!
# Resources

What can be requested, and by which methods. Wherever a resource can be fetched, its head can be
fetched too: that is the same operation with the answer's value left out.
-/

namespace AliasGate

/-- The kinds of things that requests are about. -/
inductive Resource where
  | status
  | user
  | shortUrls
  | shortUrl
  | globalShortUrl
  deriving DecidableEq, Repr

/-- What can be done with them. -/
inductive Operation where
  | showStatus
  | showUser
  | createShortUrl
  | deleteShortUrls
  | showShortUrl
  | deleteShortUrl
  | showGlobalShortUrl
  deriving DecidableEq, Repr

namespace Resource

/-- All resources, in the order of the routes that lead to them. -/
def all : List Resource := [status, user, shortUrls, shortUrl, globalShortUrl]

/-- The name of a resource in messages and events. -/
def name : Resource → Text
  | status => "status".toList
  | user => "user".toList
  | shortUrls => "shorturls".toList
  | shortUrl => "shorturl".toList
  | globalShortUrl => "globalshorturl".toList

/-- The resource with a name. -/
def ofName? (s : Text) : Option Resource := all.find? fun r => r.name = s

/-- The operations of a resource by their methods. -/
def operations : Resource → List (Http.Method × Operation)
  | status => [(.get, .showStatus)]
  | user => [(.get, .showUser)]
  | shortUrls => [(.post, .createShortUrl), (.delete, .deleteShortUrls)]
  | shortUrl => [(.get, .showShortUrl), (.delete, .deleteShortUrl)]
  | globalShortUrl => [(.get, .showGlobalShortUrl)]

/-- The methods of a resource, the one for heads last. -/
def allowed (r : Resource) : List Http.Method :=
  let methods := r.operations.map (·.1)
  if .get ∈ methods ∧ .head ∉ methods then methods ++ [.head] else methods

/-- The operation of a method. -/
def operation? (r : Resource) (m : Http.Method) : Option Operation :=
  match r.operations.lookup m with
  | some operation => some operation
  | none => if m = .head then r.operations.lookup .get else none

/-- The name of the events around an operation, without the part for before or after. -/
def eventName (r : Resource) (m : Http.Method) : Text := r.name ++ '.' :: m.eventName

/-- Every route leads to one of the given resources, or else the first that does not fails. -/
def checkServed (served : List Resource) : Except Failure Unit :=
  match all.find? (· ∉ served) with
  | some missing => .error (.unservedRoute missing.name)
  | none => .ok ()

end Resource

end AliasGate
