import AliasGate.Dispatch.Stage
import AliasGate.Event.Registry

/-!
# Listeners

Three kinds of listeners take part in a request: the guard, the resolver of public short URLs, and
hooks. The resolver comes before the guard and marks the response, so that the guard lets pass who
holds a public short URL.
-/

namespace AliasGate

/-- A listener of the dispatcher. -/
inductive Listener where
  | guard (g : Guard)
  | resolver
  | hook (h : Hook)

namespace Listener

variable {δ : Type}

/-- The priority of the resolver. -/
def resolverPriority : Int := 200

/-- The events of the resolver. -/
def resolverSubscriptions : Keyed Text Int :=
  [("globalshorturl.get.pre".toList, resolverPriority),
    ("globalshorturl.head.pre".toList, resolverPriority)]

/-- The events of a listener. -/
def subscriptions : Listener → Keyed Text Int
  | guard g => g.subscriptions
  | resolver => resolverSubscriptions
  | hook h => h.subscriptions

/-- The guard counts its verdict, and fails if that is against the request. -/
def check (g : Guard) (e : Event) : Action (Stage δ) Verdict := do
  let verdict ← Action.ofExcept (g.judge e (← get).response)
  Stage.count verdict
  match verdict.failure? with
  | some f => Action.fail f
  | none => pure verdict

/-- The short URL under the id of the path. -/
def resolve (db : Database δ) (r : Http.Request) : Action (Stage δ) ShortUrl := do
  match ← Stage.onDatabase (db.lookup r.route.givenId) with
  | some s => pure s
  | none => Action.fail .shortUrlNotFound

/-- Tells a listener of an event. -/
def tell (db : Database δ) (l : Listener) (e : Event) : Action (Stage δ) Event.Outcome :=
  match l with
  | guard g => do
    Stage.onExchange (Exchange.note (.guard e.name))
    let _ ← check g e
    pure .proceed
  | resolver => do
    Stage.onExchange (Exchange.note (.resolver e.name))
    let _ ← resolve db e.request
    Stage.onExchange (Exchange.change fun r =>
      r.setHeader Http.Response.shortUrlHeader e.request.route.givenId)
    pure .proceed
  | hook h => do
    Stage.onExchange (Exchange.note (.hook h.label e.name))
    Stage.follow db h e

end Listener

end AliasGate
