import AliasGate.Resource
import AliasGate.Token.Guard

/-!
# The stage of a request

What a request works on: the world, which outlives it, and the exchange, which is its own. The
exchange keeps the order in which listeners and operations were called.
-/

namespace AliasGate

/-- What was counted: each verdict of the guard, and the status of each failure. -/
structure Metrics where
  checks : List Verdict
  failures : List Int
  deriving DecidableEq, Repr

/-- Nothing counted. -/
def Metrics.zero : Metrics := ⟨[], []⟩

/-- What outlives a request. -/
structure World (δ : Type) where
  database : δ
  ids : IdSource
  metrics : Metrics

/-- A listener that was told of an event, or an operation that was begun. -/
inductive Call where
  | guard (event : Text)
  | resolver (event : Text)
  | hook (label event : Text)
  | operation (operation : Operation)
  deriving DecidableEq, Repr

/-- The response in the making and the calls so far. -/
structure Exchange where
  response : Http.Response
  calls : List Call

namespace Exchange

/-- The exchange at its beginning. -/
def initial : Exchange := ⟨Http.Response.initial, []⟩

/-- Notes a call. -/
def note (c : Call) : Action Exchange Unit := modify fun x => { x with calls := x.calls ++ [c] }

/-- Changes the response. -/
def change (f : Http.Response → Http.Response) : Action Exchange Unit :=
  modify fun x => { x with response := f x.response }

end Exchange

/-- World and exchange together. -/
structure Stage (δ : Type) extends World δ, Exchange

namespace Stage

variable {δ α : Type}

/-- An action on the exchange. -/
def onExchange (a : Action Exchange α) : Action (Stage δ) α :=
  a.onPart (·.toExchange) fun s x => { s with toExchange := x }

/-- An action on the database. -/
def onDatabase (a : Action δ α) : Action (Stage δ) α :=
  a.onPart (·.database) fun s d => { s with database := d }

/-- An action on the database and the source of ids. -/
def onAllocation (a : Action (δ × IdSource) α) : Action (Stage δ) α :=
  a.onPart (fun s => (s.database, s.ids)) fun s p => { s with database := p.1, ids := p.2 }

/-- Counts a verdict. -/
def count (v : Verdict) : Action (Stage δ) Unit :=
  modify fun s => { s with metrics := { s.metrics with checks := s.metrics.checks ++ [v] } }

/-- Lets a hook do at an event what it does, on the response and on the database. -/
def follow (db : Database δ) (h : Hook) (e : Event) : Action (Stage δ) Event.Outcome :=
  Action.ofFunction fun s =>
    let (response, result, database) := (h.respond e s.response).follow db s.database
    (result, { s with response := response, database := database })

end Stage

end AliasGate
