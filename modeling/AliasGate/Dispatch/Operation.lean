import AliasGate.Dispatch.Listener
import AliasGate.ShortUrl.Reader

/-!
# Operations

What is done for a request once the listeners before it have let it pass. A short URL that is absent
and one of another user or image look the same from outside.
-/

namespace AliasGate.Operation

variable {δ : Type}

/-- Puts a value in the response. -/
def answer (model : Json) : Action (Stage δ) Unit :=
  Stage.onExchange (Exchange.change fun r => { r with model := some model })

/-- Sets the status of the response. -/
def setStatus (status : Int) : Action (Stage δ) Unit :=
  Stage.onExchange (Exchange.change fun r => { r with status := status })

/-- The answer that names an image. -/
def answerImage (r : Http.Request) : Action (Stage δ) Unit :=
  answer (Json.object [("imageIdentifier".toList, .text r.route.givenImage)])

/-- The short URL of the path, if it belongs to the path's image. -/
def owned (db : Database δ) (r : Http.Request) : Action (Stage δ) ShortUrl := do
  match ← Stage.onDatabase (db.lookup r.route.givenId) with
  | some s =>
    if s.isOf r.route.givenUser r.route.givenImage then pure s
    else Action.fail .shortUrlNotFound
  | none => Action.fail .shortUrlNotFound

/-- The short URL that a request posts for the path's image. -/
def posted (r : Http.Request) : Except Fault ShortUrl :=
  match r.json with
  | .error fault => .error fault
  | .ok j =>
    match ShortUrl.ofJson j with
    | .error (.issues _) => .error (.failure .invalidParams)
    | .error refusal => .error (.defect refusal.defect)
    | .ok s =>
      if s.isOf r.route.givenUser r.route.givenImage then .ok s
      else .error (.failure .foreignParams)

/-- Does an operation for a request. -/
def perform (db : Database δ) (idLength : Int) (r : Http.Request) :
    Operation → Action (Stage δ) Unit
  | showStatus => do
    let healthy ← Stage.onDatabase db.isHealthy
    answer (Json.object [("database".toList, .bool healthy)])
    if healthy then pure () else setStatus 503
  | showUser => answer (Json.object [("user".toList, .text r.route.givenUser)])
  | createShortUrl => do
    let s ← Action.ofResult (posted r)
    let id ← Stage.onAllocation (db.allocate idLength s)
    setStatus 201
    answer (Json.object [("id".toList, .text id)])
  | deleteShortUrls => do
    let _ ← Stage.onDatabase (db.delete r.route.givenUser r.route.givenImage none)
    answerImage r
  | showShortUrl => do
    let s ← owned db r
    answer s.toJson
  | deleteShortUrl => do
    let _ ← owned db r
    let _ ← Stage.onDatabase
      (db.delete r.route.givenUser r.route.givenImage (some r.route.givenId))
    answerImage r
  | showGlobalShortUrl => do
    let s ← Listener.resolve db r
    answer s.toJson

end AliasGate.Operation
