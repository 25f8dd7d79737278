import AliasGate.Dispatch.Operation
import AliasGate.Route
import AliasGate.Settings.Basic

/-!
# The dispatcher

A request is resolved to an operation; then the listeners before it are told, the operation is done,
and the listeners after it are told. Whatever fails on the way ends the request, and the answer is
that of the failure.

* `Dispatcher.build` subscribes guard, resolver and hooks, in this order.
* `Dispatcher.resolve` says what a request asks for, or why it asks for nothing.
* `Dispatcher.handle` answers a request.
-/

namespace AliasGate

/-- The listeners of a server, and the length of the ids that it allocates. -/
structure Dispatcher where
  registry : Registry Listener
  idLength : Int

namespace Dispatcher

/-! ## Building -/

/-- The signer in use: what was offered, or else the one that settings describe. What was offered
may be no signer. -/
def signer (settings : Settings) (offered : Option (Option Signer)) :
    Except Failure (Option Signer) :=
  match offered with
  | some offer => .ok offer
  | none => (Signer.configured settings.signers settings.argumentKeys).map some

/-- Subscribes listeners one after another and ends startup. -/
def subscribeAll : List Listener → Action (Registry Listener) Unit
  | [] => Registry.freeze
  | l :: ls => do
    Registry.add l l.subscriptions
    subscribeAll ls

/-- The dispatcher of a server. -/
def build (settings : Settings) (offered : Option (Option Signer)) (hooks : List Hook) :
    Except Fault Dispatcher :=
  match signer settings offered with
  | .error f => .error (.failure f)
  | .ok offer =>
    match Guard.make offer settings.filter Guard.guardedEvents Guard.defaultPriority with
    | .error f => .error (.failure f)
    | .ok guard =>
      let listeners := .guard guard :: .resolver :: hooks.map .hook
      match (subscribeAll listeners).perform Registry.empty with
      | (.error fault, _) => .error fault
      | (.ok (), registry) => .ok ⟨registry, settings.idLength⟩

/-! ## Resolving -/

/-- What a request asks for. -/
structure Order where
  target : Target
  method : Http.Method
  operation : Operation
  deriving DecidableEq, Repr

/-- The refusal of a method, with those that the target allows. -/
def refuse (method : Text) (t : Target) : Failure :=
  .methodNotAllowed method (t.resource.allowed.map (·.name))

/-- What a request asks for. One verb is refused wherever it is used; then the path has to lead
somewhere, and the method has to be possible there. -/
def resolve (r : Http.Request) : Except Failure Order :=
  let verb := r.method.upper
  if verb = Http.Method.brew.name then .error .teapot
  else
    match Target.ofPath? (Percent.decode r.path) with
    | none => .error .invalidRoute
    | some target =>
      match Http.Method.ofName? verb with
      | none => .error (refuse r.method target)
      | some method =>
        match target.resource.operation? method with
        | none => .error (refuse method.name target)
        | some operation => .ok ⟨target, method, operation⟩

/-! ## Handling -/

/-- The event of a request under the name of its operation. -/
def event (order : Order) (r : Http.Request) (config : Settings) (keys : AccessKeys) : Event where
  name := order.target.resource.eventName order.method
  request := { r with route := order.target.params }
  config := config
  keys := keys

variable {δ : Type}

/-- Tells the listeners before or after an operation. -/
def publish (d : Dispatcher) (db : Database δ) (moment : String) (e : Event) :
    Action (Stage δ) Unit := do
  let _ ← d.registry.publish (e.name ++ moment.toList) e (Listener.tell db)
  pure ()

/-- Serves what a request asks for. The answer to a request for the head has no value. -/
def serve (d : Dispatcher) (db : Database δ) (order : Order) (e : Event) :
    Action (Stage δ) Unit := do
  d.publish db ".pre" e
  Stage.onExchange (Exchange.note (.operation order.operation))
  order.operation.perform db d.idLength e.request
  d.publish db ".post" e
  if order.method = .head then
    Stage.onExchange (Exchange.change fun r => { r with model := none })
  else pure ()

/-- A request from beginning to end. -/
def process (d : Dispatcher) (db : Database δ) (config : Settings) (keys : AccessKeys)
    (r : Http.Request) : Action (Stage δ) Unit := do
  let order ← Action.ofExcept (resolve r)
  d.serve db order (event order r config keys)

/-- An answered request: the response, the calls that led to it, and the world after it. -/
structure Answer (δ : Type) where
  response : Http.Response
  calls : List Call
  world : World δ

/-- The answer to a failed request, which is counted by its status. -/
def failed (f : Failure) (s : Stage δ) : Answer δ where
  response := Http.Response.ofFailure f
  calls := s.calls
  world :=
    { s.toWorld with
      metrics := { s.metrics with failures := s.metrics.failures ++ [f.status] } }

/-- Answers a request. -/
def handle (d : Dispatcher) (db : Database δ) (config : Settings) (keys : AccessKeys)
    (r : Http.Request) (w : World δ) : Answer δ :=
  match (d.process db config keys r).perform ⟨w, Exchange.initial⟩ with
  | (.ok (), s) => ⟨s.response, s.calls, s.toWorld⟩
  | (.error fault, s) => failed fault.told s

end Dispatcher

end AliasGate
