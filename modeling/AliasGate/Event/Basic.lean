import AliasGate.Http.Request
import AliasGate.Http.Response
import AliasGate.Settings.Basic
import AliasGate.ShortUrl.Database

/-!
# Events and hooks

An event tells listeners that a request has come to a certain stage. Listeners answer whether those
after them are still to be told.

A hook is a listener from outside. It sees the event and the response as it stands. It may use the
database, going by what that answers, change the response, fail, and stop the listeners after it.
What it writes to the database stays there however the request ends.
-/

namespace AliasGate

/-! ## Events -/

/-- A stage of a request, with what the listeners may go by. The response and the database are given
to them beside it, since they may change. -/
structure Event where
  name : Text
  request : Http.Request
  config : Settings
  keys : AccessKeys

namespace Event

/-- The same event under another name. -/
def renamed (e : Event) (name : Text) : Event := { e with name := name }

/-- The schemes that signed URLs may have at an event. -/
def protocol (e : Event) : Protocol := e.config.protocol

/-- What a listener answers: stop, go on, or a value that means nothing. -/
inductive Outcome where
  | stop
  | proceed
  | other (value : Json)

end Event

/-! ## Hooks -/

/-- What a hook does at an event: it gives commands to the database, going on by the reply or fault
of each, and ends with the response after it and its answer. -/
inductive Hook.Program where
  | done (response : Http.Response) (result : Except Fault Event.Outcome)
  | command (c : Database.Command) (next : Except Fault c.Reply → Hook.Program)

/-- A listener from outside. -/
structure Hook where
  label : Text
  /-- The events it listens to, with its priority for each. -/
  subscriptions : Keyed Text Int
  /-- What it does at an event, by the response as it stands. -/
  respond : Event → Http.Response → Hook.Program

namespace Hook

/-- Carries out a program: the response after it, its answer, and the database after it. -/
def Program.follow {δ : Type} (db : Database δ) :
    Program → δ → Http.Response × Except Fault Event.Outcome × δ
  | .done response result, s => (response, result, s)
  | .command c next, s =>
    let (reply, s) := (db.carryOut c).perform s
    (next reply).follow db s

/-- What a hook does at every event: set headers, put a value in the response's place, and then
fail or answer. -/
structure Script where
  headers : List (Text × Text)
  model : Option (Option Json)
  fault : Option Fault
  outcome : Event.Outcome

/-- The response that a script leaves. -/
def Script.apply (s : Script) (r : Http.Response) : Http.Response :=
  let r := s.headers.foldl (fun (r : Http.Response) h => r.setHeader h.1 h.2) r
  { r with model := s.model.getD r.model }

/-- The result of a script. -/
def Script.result (s : Script) : Except Fault Event.Outcome :=
  match s.fault with
  | some fault => .error fault
  | none => .ok s.outcome

/-- The hook that follows a script and lets the database be. -/
def scripted (label : Text) (subscriptions : Keyed Text Int) (s : Script) : Hook where
  label := label
  subscriptions := subscriptions
  respond _ r := .done (s.apply r) s.result

end Hook

end AliasGate
