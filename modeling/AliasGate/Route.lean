import AliasGate.Http.Request
import AliasGate.Resource

/-!
# Routes

A path names what a request is about. Each kind of target has one template; a slash may follow those
that could have something below them, and a line feed may end any path.

* `Target.path` writes a target into its template.
* `Target.ofPath?` reads a decoded path.
-/

namespace AliasGate

/-- What a path is about. -/
inductive Target where
  | status
  | user (user : Text)
  | shortUrls (user image : Text)
  | shortUrl (user image id : Text)
  | globalShortUrl (id : Text)
  deriving DecidableEq, Repr

namespace Target

/-- The kind of a target. -/
def resource : Target → Resource
  | status => .status
  | user _ => .user
  | shortUrls _ _ => .shortUrls
  | shortUrl _ _ _ => .shortUrl
  | globalShortUrl _ => .globalShortUrl

/-- The named parts of a target. -/
def params : Target → Http.RouteParams
  | status => {}
  | user u => { user := some u }
  | shortUrls u i => { user := some u, image := some i }
  | shortUrl u i id => { user := some u, image := some i, id := some id }
  | globalShortUrl id => { id := some id }

/-! ## Writing -/

/-- The segments of a target's path. -/
def segments : Target → List Text
  | status => ["status".toList]
  | user u => ["users".toList, u]
  | shortUrls u i => ["users".toList, u, "images".toList, i, "shortUrls".toList]
  | shortUrl u i id => ["users".toList, u, "images".toList, i, "shortUrls".toList, id]
  | globalShortUrl id => ["s".toList, id]

/-- The path of a target. -/
def path (t : Target) : Text := t.segments.flatMap fun segment => '/' :: segment

/-- A slash may follow the path of a target. -/
def mayEndInSlash : Target → Bool
  | shortUrl _ _ _ => false
  | globalShortUrl _ => false
  | _ => true

/-! ## Reading -/

/-- A letter or digit of ASCII. -/
def isIdChar (c : Char) : Bool :=
  ('a' ≤ c && c ≤ 'z') || ('A' ≤ c && c ≤ 'Z') || ('0' ≤ c && c ≤ '9')

/-- The form of an id: at least one letter or digit, and nothing else. -/
def isId (s : Text) : Bool := s != [] && s.all isIdChar

/-- The target with the given segments. Segments for a user or an image are not empty. -/
def ofSegments? : List Text → Option Target
  | [a] => if a = "status".toList then some status else none
  | [a, b] =>
    if a = "users".toList ∧ b ≠ [] then some (user b)
    else if a = "s".toList ∧ isId b = true then some (globalShortUrl b)
    else none
  | [a, u, b, i, c] =>
    if a = "users".toList ∧ u ≠ [] ∧ b = "images".toList ∧ i ≠ [] ∧ c = "shortUrls".toList then
      some (shortUrls u i)
    else none
  | [a, u, b, i, c, id] =>
    if a = "users".toList ∧ u ≠ [] ∧ b = "images".toList ∧ i ≠ [] ∧ c = "shortUrls".toList ∧
        isId id = true then
      some (shortUrl u i id)
    else none
  | _ => none

/-- The target of segments that an empty one may follow, if a slash may end the path. -/
def ofSegmentsOrSlash? (segments : List Text) : Option Target :=
  match ofSegments? segments with
  | some t => some t
  | none =>
    match Text.before? [[]] segments with
    | some segments => (ofSegments? segments).filter mayEndInSlash
    | none => none

/-- The target of a path without a line feed after it. -/
def ofPlainPath? (path : Text) : Option Target :=
  match Text.fields '/' path with
  | [] :: segments => ofSegmentsOrSlash? segments
  | _ => none

/-- The target of a decoded path. -/
def ofPath? (path : Text) : Option Target := Text.orBeforeNewline ofPlainPath? path

end Target

end AliasGate
