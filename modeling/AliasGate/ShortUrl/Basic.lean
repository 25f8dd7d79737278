import AliasGate.Action
import AliasGate.Json.Writer

/-!
# Short URLs

What a short URL stands for: an image of a user, perhaps under another extension and with query
arguments. A store holds short URLs under their ids, in the order in which they came.

* `ShortUrl.agrees` is the equality by which a short URL is used again.
* `ShortUrl.toJson` is the form that clients see, `ShortUrl.written` its stored text.
* `Store.idOf?` finds an agreeing short URL, `Store.erase` takes away those of an image.
-/

namespace AliasGate

/-- The target of a short URL. -/
structure ShortUrl where
  user : Text
  image : Text
  extension : Option WideText
  query : Keyed WideText Json

namespace ShortUrl

/-- The target is an image of the user. -/
def isOf (s : ShortUrl) (user image : Text) : Bool := s.user == user && s.image == image

/-- The same image and extension, and agreeing query values. -/
def agrees (s t : ShortUrl) : Bool :=
  s.user == t.user && s.image == t.image && s.extension == t.extension &&
    (Json.obj s.query).agrees (.obj t.query)

/-- The fields in order, under their public names. -/
def toJson (s : ShortUrl) : Json :=
  Json.object [("user".toList, .text s.user), ("imageIdentifier".toList, .text s.image),
    ("extension".toList, s.extension.elim .null .str), ("query".toList, .obj s.query)]

/-- The same target with the surrogates in its query joined in pairs. -/
def joinPairs (s : ShortUrl) : ShortUrl :=
  { s with query := Keyed.ofPairs (Json.joinPairsMembers s.query) }

/-- The same target with each lone surrogate in the name of a query argument replaced. -/
def withTextNames (s : ShortUrl) : ShortUrl :=
  { s with query := s.query.map fun m => (WideText.ofText (WideText.toTextLossy m.1), m.2) }

/-- The stored text. Numbers that are not finite are lost, and so are lone surrogates in the names
of query arguments; anywhere else a lone surrogate has no text. -/
def written (s : ShortUrl) : Except Json.Unwritable Text :=
  Json.write .stored s.withTextNames.toJson

end ShortUrl

/-! ## Stores -/

/-- Short URLs by id. -/
abbrev Store := Keyed Text ShortUrl

namespace Store

/-- The short URL under an id. -/
def lookup? (store : Store) (id : Text) : Option ShortUrl := Keyed.get? store id

/-- The first id under which an agreeing short URL is stored. -/
def idOf? (store : Store) (s : ShortUrl) : Option Text :=
  (store.find? fun record => record.2.agrees s).map (·.1)

/-- A record is one of an image's, and has the id if one is given. -/
def isDoomed (user image : Text) (id : Option Text) (record : Text × ShortUrl) : Bool :=
  record.2.isOf user image && id.all (record.1 == ·)

/-- Adds a short URL under an id that is free. -/
def insert (store : Store) (id : Text) (s : ShortUrl) : Except Failure Store :=
  if id ∈ Keyed.keys store then .error (.idInUse id) else .ok (store ++ [(id, s)])

/-- The store without the short URLs of an image, or without the one of them under the id. -/
def erase (store : Store) (user image : Text) (id : Option Text) : Store :=
  store.filter fun record => !isDoomed user image id record

/-- How many short URLs that takes away. -/
def eraseCount (store : Store) (user image : Text) (id : Option Text) : Nat :=
  store.countP (isDoomed user image id)

end Store

end AliasGate
