import AliasGate.Query.Argument
import AliasGate.Text.Basic

/-!
# Candidate URLs

A client signs a URL as it saw it: as transmitted, decoded, with arguments written plainly or
encoded, with array arguments in either notation, under one scheme or another. All these forms are
rebuilt from the request, each without the argument that carries the token.

A `Protocol` says which schemes a URL may have been signed under.
-/

namespace AliasGate

/-- The schemes that a signed URL may have. -/
inductive Protocol where
  | incoming
  | http
  | https
  | both
  deriving DecidableEq, Repr

namespace Protocol

/-- The name of a protocol in settings. -/
def name : Protocol → Text
  | incoming => "incoming".toList
  | http => "http".toList
  | https => "https".toList
  | both => "both".toList

/-- All protocols. -/
def all : List Protocol := [incoming, http, https, both]

/-- The protocol with a name. -/
def ofName? (s : Text) : Option Protocol := all.find? fun p => p.name = s

/-- The schemes that candidate URLs are rewritten to; none means that the incoming scheme stays. -/
def schemes : Protocol → List Text
  | incoming => []
  | http => ["http".toList]
  | https => ["https".toList]
  | both => ["http".toList, "https".toList]

end Protocol

end AliasGate

/-! ## Candidates -/

namespace AliasGate.Candidate

/-- A character that may stand before an argument. -/
def isSeparator (c : Char) : Bool := c == '?' || c == '&'

/-- Where the removal of arguments stands: between them, after a separator or not, or inside an
argument to remove, with so many characters of its marker still ahead. -/
inductive Position where
  | outside (opened : Bool)
  | inside (ahead : Nat)

/-- Removes each argument that begins with the marker, together with the ampersand after it. -/
def removeFrom (marker : Text) : Position → Text → Text
  | _, [] => []
  | .outside opened, c :: s =>
    if opened && marker.isPrefixOf (c :: s) then removeFrom marker (.inside (marker.length - 1)) s
    else c :: removeFrom marker (.outside (isSeparator c)) s
  | .inside (ahead + 1), _ :: s => removeFrom marker (.inside ahead) s
  | .inside 0, c :: s =>
    if c = '&' then removeFrom marker (.outside true) s else removeFrom marker (.inside 0) s

/-- The URL without the arguments named `key`, and without separators at its end. -/
def strip (key url : Text) : Text :=
  Text.dropEndWhile isSeparator (removeFrom (key ++ ['=']) (.outside false) url)

/-- The URL under another scheme, if it has one of the two. -/
def withScheme (scheme url : Text) : Text :=
  match Text.after? "http".toList url with
  | none => url
  | some rest =>
    match Text.after? ['s'] rest with
    | some rest => scheme ++ rest
    | none => scheme ++ rest

/-- The pair of URLs that a list of arguments gives: plain and encoded. -/
def rebuilt (base : Text) (args : List Query.Argument) : List Text :=
  [Query.join id (Percent.decode base) args, Query.join Percent.encode base args]

/-- The forms of a URL under its own scheme, token argument included. -/
def forms (url : Text) : List Text :=
  let (base, query) := Text.cut '?' url
  let args := Query.arguments (query.getD [])
  [url, Percent.decode url] ++
    match query.getD [] with
    | [] => []
    | _ => [args, Query.index args, Query.reduce args].flatMap (rebuilt base)

/-- The forms of a URL under each of the schemes. -/
def underSchemes (schemes : List Text) (urls : List Text) : List Text :=
  match schemes with
  | [] => urls
  | _ => urls.flatMap fun url => schemes.map fun scheme => withScheme scheme url

/-- The elements in order of their first occurrence. -/
def distinct : List Text → List Text
  | [] => []
  | url :: urls => url :: (distinct urls).filter (· ≠ url)

/-- Every form of a URL that a client may have signed, each once. -/
def urls (url : Text) (protocol : Protocol) (key : Text) : List Text :=
  distinct ((underSchemes protocol.schemes (forms url)).map (strip key))

end AliasGate.Candidate
