import AliasGate.Failure
import AliasGate.Json.Basic
import AliasGate.Text.Case

/-!
# Responses

What is answered: a status, headers, and a value unless the answer is empty. A failure is answered
by a value that shows its status and its message.
-/

namespace AliasGate.Http

/-- A response. -/
structure Response where
  status : Int
  headers : Keyed Text Text
  model : Option Json

namespace Response

/-- The response that a request starts out with. -/
def initial : Response := ⟨200, [], none⟩

/-- The header that marks the answer for a public short URL. -/
def shortUrlHeader : Text := "X-Imbo-ShortUrl".toList

/-- Sets a header. A name in other letter case is another header. -/
def setHeader (r : Response) (name value : Text) : Response :=
  { r with headers := Keyed.put r.headers name value }

/-- A header is set, in any letter case of its name. -/
def hasHeader (r : Response) (name : Text) : Bool :=
  r.headers.any fun h => h.1.lower == name.lower

/-- The value that tells of a failure. -/
def errorModel (f : Failure) : Json :=
  Json.object [("error".toList, Json.object
    [("code".toList, .int f.status), ("message".toList, Json.text f.message)])]

/-- The answer to a request that failed. The only header lists the allowed methods, if any. -/
def ofFailure (f : Failure) : Response where
  status := f.status
  headers :=
    match f.allowed with
    | [] => []
    | allowed => [("Allow".toList, Text.joined ", ".toList allowed)]
  model := some (errorModel f)

end Response

end AliasGate.Http
