import AliasGate.Proofs.Dispatch.OwnListeners
import AliasGate.Proofs.Dispatch.Frames

/-!
# The course of a request

How a request ends, above all on a server where nobody is told after operations.

* `Dispatcher.answerOf`: the answer that an ending of the stages before the last amounts to.
* `Dispatcher.handle_of_order`: a request that asks for something is answered by what was published
  before its operation, what the operation did, and what was published after it.
* `Dispatcher.handle_of_quiet`: the same where the last stage is none.
* `Dispatcher.guardEnding`: how an event ends at which the guard is alone, by the guard's verdict.
* `Dispatcher.handle_guarded`: both together for the short URLs of an image, on a server without
  hooks.
-/

namespace AliasGate

namespace Dispatcher

variable {δ : Type} {d : Dispatcher} {db : Database δ} {config : Settings} {keys : AccessKeys}
  {r : Http.Request} {order : Order} {w : World δ}

/-! ## Answers -/

/-- The answer to a request whose operation, or what came before or after it, ended so. The answer
to a request for the head has no value. -/
def answerOf (method : Http.Method) : Except Fault Unit × Stage δ → Answer δ
  | (.ok (), s) =>
    ⟨if method = .head then { s.response with model := none } else s.response, s.calls, s.toWorld⟩
  | (.error fault, s) => failed fault.told s

/-- The operation of a request, which is noted before it is done. -/
def execute (d : Dispatcher) (db : Database δ) (order : Order) (e : Event) :
    Action (Stage δ) Unit := do
  Stage.onExchange (Exchange.note (.operation order.operation))
  order.operation.perform db d.idLength e.request

@[simp] theorem perform_execute (d : Dispatcher) (db : Database δ) (order : Order) (e : Event)
    (s : Stage δ) : (d.execute db order e).perform s =
      (order.operation.perform db d.idLength e.request).perform
        (s.noting (.operation order.operation)) := by
  simp [execute]

/-- A request that asks for nothing is answered at once. -/
theorem handle_of_refused {f : Failure} (h : resolve r = .error f) :
    d.handle db config keys r w = failed f ⟨w, Exchange.initial⟩ := by
  simp only [handle, process, h, Action.perform_bind, Action.perform_ofExcept_error,
    Action.andThen_error, Fault.told]

/-- Leaves the value out of the answer to a request for the head. -/
def close (method : Http.Method) : Action (Stage δ) Unit :=
  if method = .head then Stage.onExchange (Exchange.change fun r => { r with model := none })
  else pure ()

/-- A request that asks for something goes from the listeners before its operation to the operation
and to the listeners after it, and then only the value of an answer may be left out. -/
theorem perform_process (hr : resolve r = .ok order) :
    (d.process db config keys r).perform ⟨w, Exchange.initial⟩ =
      Action.andThen (Action.andThen (Action.andThen
        ((d.publish db ".pre" (event order r config keys)).perform ⟨w, Exchange.initial⟩)
        fun _ => d.execute db order (event order r config keys))
        fun _ => d.publish db ".post" (event order r config keys))
        fun _ => close order.method := by
  simp only [process, hr, Action.perform_bind, Action.perform_ofExcept_ok, Action.andThen_ok, serve,
    Action.andThen_andThen, execute, close, bind_assoc]

/-- Such a request is answered by how these stages end. -/
theorem handle_of_order (hr : resolve r = .ok order) :
    d.handle db config keys r w =
      answerOf order.method (Action.andThen (Action.andThen
        ((d.publish db ".pre" (event order r config keys)).perform ⟨w, Exchange.initial⟩)
        fun _ => d.execute db order (event order r config keys))
        fun _ => d.publish db ".post" (event order r config keys)) := by
  unfold handle
  rw [perform_process hr]
  generalize Action.andThen _ (fun _ => d.publish db ".post" _) = x
  rcases x with ⟨fault | _, s⟩
  · rfl
  · by_cases hhead : order.method = .head <;> simp only [Action.andThen_ok, close, hhead,
      ↓reduceIte, answerOf] <;> rfl

/-! ## Nobody told after operations -/

theorem publish_quiet (hquiet : d.Quiet) (db : Database δ) (e : Event) (s : Stage δ) :
    (d.publish db ".post" e).perform s = (.ok (), s) := by
  rw [publish_eq, show d.registry.listeners (e.name ++ ".post".toList) = [] from hquiet e.name]
  rfl

theorem andThen_quiet (hquiet : d.Quiet) (db : Database δ) (e : Event)
    (x : Except Fault Unit × Stage δ) : (Action.andThen x fun _ => d.publish db ".post" e) = x := by
  rcases x with ⟨fault | _, s⟩
  · rfl
  · exact publish_quiet hquiet db e s

/-- Where nobody is told after operations, a request goes from the listeners before its operation to
the operation, and then only the value of an answer may be left out. -/
theorem perform_process_of_quiet (hquiet : d.Quiet) (hr : resolve r = .ok order) :
    (d.process db config keys r).perform ⟨w, Exchange.initial⟩ = Action.andThen (Action.andThen
      ((d.publish db ".pre" (event order r config keys)).perform ⟨w, Exchange.initial⟩)
      fun _ => d.execute db order (event order r config keys)) fun _ => close order.method := by
  rw [perform_process hr, andThen_quiet hquiet]

/-- Where nobody is told after operations, a request ends as its operation does. -/
theorem handle_of_quiet (hquiet : d.Quiet) (hr : resolve r = .ok order) :
    d.handle db config keys r w =
      answerOf order.method (Action.andThen
        ((d.publish db ".pre" (event order r config keys)).perform ⟨w, Exchange.initial⟩)
        fun _ => d.execute db order (event order r config keys)) := by
  rw [handle_of_order hr, andThen_quiet hquiet]

/-! ## The guard alone -/

/-- How an event ends at which the guard is alone, by what the guard says. -/
def guardEnding (name : Text) (s : Stage δ) :
    Except Failure Verdict → Except Fault Unit × Stage δ
  | .error f => (.error (.failure f), s.noting (.guard name))
  | .ok v =>
    (match v.failure? with
      | some f => .error (.failure f)
      | none => .ok (), (s.noting (.guard name)).counting v)

theorem publish_guard_alone {g : Guard} {e : Event} {s : Stage δ}
    (hl : d.registry.listeners (e.name ++ preSuffix) = [.guard g]) :
    (d.publish db ".pre" e).perform s =
      guardEnding (e.name ++ preSuffix) s (g.judge (e.renamed (e.name ++ preSuffix)) s.response) := by
  cases hj : g.judge (e.renamed (e.name ++ preSuffix)) s.response with
  | error f => exact publish_fault hl (Listener.tell_guard_failed hj)
  | ok v =>
    cases hf : v.failure? with
    | some f =>
      rw [publish_fault hl (Listener.tell_guard_refused hj hf)]
      simp only [guardEnding, hf]
      rfl
    | none =>
      rw [publish_guard_passed hl hj hf]
      simp only [guardEnding, hf]

/-- What the guard of a server says about a request. -/
def verdict (s : Signer) (settings : Settings) (order : Order) (r : Http.Request)
    (config : Settings) (keys : AccessKeys) : Except Failure Verdict :=
  (guardOf s settings).judge
    ((event order r config keys).renamed ((event order r config keys).name ++ preSuffix))
    Http.Response.initial

/-- Without hooks, a request for the short URLs of an image is answered by the guard's verdict on it
and by what its operation does. The verdict is the same in every world. -/
theorem handle_guarded {settings : Settings} {s : Signer} (hd : Wired d s settings [])
    (hr : resolve r = .ok order) (ht : order.target.resource ≠ .status)
    (hg : order.target.resource ≠ .globalShortUrl) :
    d.handle db config keys r w =
      answerOf order.method (Action.andThen
        (guardEnding ((event order r config keys).name ++ preSuffix) ⟨w, Exchange.initial⟩
          (verdict s settings order r config keys))
        fun _ => d.execute db order (event order r config keys)) := by
  have hl := listeners_before_nil hd ht (resolve_operation hr)
  rw [ownListeners, if_neg hg] at hl
  rw [handle_of_quiet (hd.quiet hooksComeBefore_nil) hr, publish_guard_alone hl]
  rfl

end Dispatcher

end AliasGate
