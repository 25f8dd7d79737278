import AliasGate.Http.Request
import AliasGate.Text.Basic
import AliasGate.Text.Case
import AliasGate.Url.Head

/-!
# Arrivals

A request as the network hands it over, and what the rest of the server sees of it. Path and query
stay as transmitted, byte by byte. Which URL the client used is taken from the host header, and from
forwarding headers if a trusted proxy set them.

Headers are found by names in lower case, and the first of several counts.

* `Arrival.urlHead` reads the URL by which the server knows a request, if it can tell it.
* `Arrival.toRequest` gives what the dispatcher sees.
-/

namespace AliasGate.Server

/-- A request from the network. -/
structure Arrival where
  method : Text
  scheme : Text
  /-- The path as transmitted, if the network tells. -/
  rawPath : Option Bytes
  /-- The decoded path. -/
  path : Text
  query : Bytes
  headers : List (Text × Text)
  /-- The address of the other side. -/
  peer : Option Text
  /-- The name and the socket number by which the server knows itself. -/
  server : Text
  socket : Nat
  body : Bytes
  /-- How deep the body may nest where it is read. -/
  room : Nat

namespace Arrival

/-- A character for each byte. -/
def characters (s : Bytes) : Text := s.map fun b => Char.ofNat b.toNat

/-- The first header with a name in lower case. -/
def header? (a : Arrival) (name : String) : Option Text := a.headers.lookup name.toList

/-- All headers under names in lower case. -/
def headersByName (a : Arrival) : Keyed Text Text :=
  Keyed.ofPairs (a.headers.map fun h => (h.1.lower, h.2))

/-! ## The URL of the client -/

/-- The socket number that a scheme does without. -/
def defaultSocket? (scheme : Text) : Option Nat :=
  if scheme = "http".toList ∨ scheme = "ws".toList then some 80
  else if scheme = "https".toList ∨ scheme = "wss".toList then some 443
  else none

/-- The authority of the URL by which the server knows the request: the host header if that is a
host, else the server's own name, with the socket number unless the scheme does without it. For its
own name the server has to know the scheme. -/
def authority? (a : Arrival) : Option Text :=
  (a.header? "host").filter Url.Host.isHost <|>
    (defaultSocket? a.scheme).map fun socket =>
      if a.socket = socket then a.server else a.server ++ ':' :: Text.ofNat a.socket

/-- Scheme and authority of that URL, as they are read from it. -/
def urlHead (a : Arrival) : Except Defect Url.Head :=
  match a.authority? with
  | none => .error (.unknownScheme a.scheme)
  | some authority =>
    (Url.readHead (a.scheme ++ "://".toList ++ authority ++ ['/'])).mapError .invalidUrl

/-- The first of several values with commas between them. -/
def firstValue (s : Text) : Text := Text.trim Text.isBlankOrSeparator (Text.cut ',' s).1

/-- A value that a trusted proxy may replace by a header. -/
def forwarded (a : Arrival) (trusted : List Text) (name : String) (value : Text) : Text :=
  if a.peer.any (· ∈ trusted) then firstValue ((a.header? name).getD value) else value

/-- The path as transmitted; a question mark ends it. -/
def transmittedPath (a : Arrival) : Text :=
  let path :=
    match a.rawPath with
    | none => Utf8.encode a.path
    | some [] => Utf8.encode a.path
    | some path => path
  characters (path.takeWhile (· != UInt8.ofNat '?'.toNat))

/-- What the dispatcher sees of an arrival. -/
def toRequest (a : Arrival) (trusted : List Text) : Except Defect Http.Request :=
  a.urlHead.map fun head =>
    let host := (Http.Request.nonempty? (a.header? "host")).getD head.authority
    { method := a.method.upper
      scheme := a.forwarded trusted "x-forwarded-proto" head.scheme
      host := a.forwarded trusted "x-forwarded-host" host
      path := a.transmittedPath
      query := characters a.query
      headers := a.headersByName
      route := {}
      body := a.body
      room := a.room }

end Arrival

end AliasGate.Server
