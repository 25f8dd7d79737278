import AliasGate.Proofs.Dispatch.Failures
import AliasGate.Proofs.Event.Publishing
import AliasGate.Proofs.Text.Case

/-!
# The stages of a request

What is called for a request, and in which order, whatever listeners a server has.

* `Dispatcher.Told`: the listeners of an event were told, up to one who stops or raises a fault.
* `Dispatcher.Course`: the listeners before an operation, the operation, and the listeners after it,
  up to the first fault. The calls of a course are those that the exchange shows (`Course.calls`).
* `Dispatcher.handle_of_brew`, `Dispatcher.handle_of_nowhere` and
  `Dispatcher.handle_of_refused_method`: the three ways in which a request is refused before anything
  is called.
* `Dispatcher.handle_stages`: every request is refused in one of these ways or takes its course.
-/

namespace AliasGate

open AliasGate.Action (Keeps)

/-! ## Calls -/

namespace Listener

variable {δ : Type}

/-- The call of a listener for an event. -/
def call : Listener → Text → Call
  | guard _, event => .guard event
  | resolver, event => .resolver event
  | hook h, event => .hook h.label event

/-- Whatever a listener does when told, it is called once and calls nobody else. -/
theorem tell_calls (db : Database δ) (l : Listener) (e : Event) (s : Stage δ) :
    ((tell db l e).perform s).2.calls = s.calls ++ [l.call e.name] := by
  cases l with
  | guard g =>
    have hcheck : Keeps (fun s : Stage δ => s.calls) (check g e) := check_keeps (fun _ _ => rfl) g e
    exact Stage.calls_note (Keeps.bind hcheck fun _ => Keeps.pure _ _) _ s
  | resolver =>
    have hlookup := fun key => Stage.aside_calls.onDatabase (db.lookup key)
    refine Stage.calls_note (Keeps.bind (resolve_keeps hlookup _) fun _ => ?_) _ s
    exact Keeps.bind (Stage.aside_calls.change _) fun _ => Keeps.pure _ _
  | hook h => rfl

end Listener

namespace Dispatcher

variable {δ : Type} {d : Dispatcher} {db : Database δ} {order : Order} {e : Event}
  {s t : Stage δ} {told : List Listener}

/-! ## Publishing -/

/-- The listeners `told` of the event before or after an operation are those who are told of it: all
of its listeners, or those up to one who stops or raises a fault. -/
def Told (d : Dispatcher) (db : Database δ) (e : Event) (moment : Text) (s : Stage δ)
    (told : List Listener) (x : Except Fault Registry.Published) (t : Stage δ) : Prop :=
  ∃ untold, d.registry.listeners (e.name ++ moment) = told ++ untold ∧
    Registry.Ending (fun l => Listener.tell db l (e.renamed (e.name ++ moment))) s told untold x t

theorem publish_told (d : Dispatcher) (db : Database δ) (e : Event) (moment : String)
    (s : Stage δ) : ∃ told x t, Told d db e moment.toList s told x t ∧
      (d.publish db moment e).perform s = (x.map fun _ => (), t) := by
  obtain ⟨told, untold, x, t, hlisteners, hperform, hending⟩ := Registry.notify_ending
    (fun l => Listener.tell db l (e.renamed (e.name ++ moment.toList)))
    (d.registry.listeners (e.name ++ moment.toList)) s
  refine ⟨told, x, t, ⟨untold, hlisteners, hending⟩, ?_⟩
  rw [publish_eq, hperform]
  cases x <;> rfl

theorem Told.calls {moment : Text} {x : Except Fault Registry.Published}
    (h : Told d db e moment s told x t) :
    t.calls = s.calls ++ told.map (·.call (e.name ++ moment)) := by
  obtain ⟨untold, -, hending⟩ := h
  exact hending.notes (fun s => s.calls) fun l s => Listener.tell_calls db l _ s

/-! ## Courses -/

/-- The stages of a request that asks for something, with the calls on the way and the ending: a
listener before the operation raises a fault, or the operation does, or else the listeners after it
are told. Who stops the listeners before an operation does not stop the operation. -/
inductive Course (d : Dispatcher) (db : Database δ) (order : Order) (e : Event) (s : Stage δ) :
    List Call → Except Fault Unit → Stage δ → Prop
  | refused {told : List Listener} {fault : Fault} {t : Stage δ}
    (hpre : Told d db e preSuffix s told (.error fault) t) :
    Course d db order e s (told.map (·.call (e.name ++ preSuffix))) (.error fault) t
  | failed {told : List Listener} {before : Registry.Published} {fault : Fault} {t u : Stage δ}
    (hpre : Told d db e preSuffix s told (.ok before) t)
    (hop : (d.execute db order e).perform t = (.error fault, u)) :
    Course d db order e s
      (told.map (·.call (e.name ++ preSuffix)) ++ [.operation order.operation]) (.error fault) u
  | done {told told' : List Listener} {before : Registry.Published}
    {after : Except Fault Registry.Published} {t u v : Stage δ}
    (hpre : Told d db e preSuffix s told (.ok before) t)
    (hop : (d.execute db order e).perform t = (.ok (), u))
    (hpost : Told d db e postSuffix u told' after v) :
    Course d db order e s
      (told.map (·.call (e.name ++ preSuffix)) ++
        (.operation order.operation :: told'.map (·.call (e.name ++ postSuffix))))
      (after.map fun _ => ()) v

/-- An operation is one call and makes no others. -/
theorem execute_calls {x : Except Fault Unit} (h : (d.execute db order e).perform s = (x, t)) :
    t.calls = s.calls ++ [.operation order.operation] := by
  have hcalls : ((d.execute db order e).perform s).2.calls = _ := Stage.calls_note
    (Operation.perform_keeps_aside Stage.aside_calls db d.idLength e.request order.operation) _ s
  rwa [h] at hcalls

/-- The calls of a course are made one after another, and nothing else is called. -/
theorem Course.calls {calls : List Call} {x : Except Fault Unit}
    (h : Course d db order e s calls x t) : t.calls = s.calls ++ calls := by
  cases h with
  | refused hpre => exact hpre.calls
  | failed hpre hop => rw [execute_calls hop, hpre.calls, List.append_assoc]
  | done hpre hop hpost =>
    rw [hpost.calls, execute_calls hop, hpre.calls]
    simp only [List.append_assoc, List.singleton_append]

section
variable {config : Settings} {keys : AccessKeys} {r : Http.Request} {w : World δ}

theorem answerOf_calls (m : Http.Method) (x : Except Fault Unit) (s : Stage δ) :
    (answerOf m (x, s)).calls = s.calls := by
  cases x <;> rfl

/-- A request that asks for something takes its course, and is answered by how that ends. -/
theorem exists_course (d : Dispatcher) (db : Database δ) (config : Settings) (keys : AccessKeys)
    (w : World δ) (hr : resolve r = .ok order) :
    ∃ calls x s, Course d db order (event order r config keys) ⟨w, Exchange.initial⟩ calls x s ∧
      d.handle db config keys r w = answerOf order.method (x, s) := by
  rw [handle_of_order hr]
  obtain ⟨told, x, t, hpre, hpublish⟩ :=
    publish_told d db (event order r config keys) ".pre" ⟨w, Exchange.initial⟩
  rw [hpublish]
  cases x with
  | error fault => exact ⟨_, _, t, .refused hpre, rfl⟩
  | ok before =>
    rcases hop : (d.execute db order (event order r config keys)).perform t with
      ⟨fault | _, u⟩ <;> rw [Except.map, Action.andThen_ok, hop]
    · exact ⟨_, _, u, .failed hpre hop, rfl⟩
    · obtain ⟨told', y, v, hpost, hpublish⟩ :=
        publish_told d db (event order r config keys) ".post" u
      rw [Action.andThen_ok, hpublish]
      exact ⟨_, _, v, .done hpre hop hpost, rfl⟩

/-! ## Refusals -/

/-- The answer to a request for which nothing is called: the records are as they were, and only the
status is counted. -/
def refusal (w : World δ) (response : Http.Response) : Answer δ where
  response := response
  calls := []
  world := { w with
    metrics := { w.metrics with failures := w.metrics.failures ++ [response.status] } }

theorem handle_of_brew (h : r.method.upper = Http.Method.brew.name) :
    d.handle db config keys r w =
      refusal w ⟨418, [], some (errorBody 418 "I'm a teapot!".toList)⟩ := by
  have hr : resolve r = .error .teapot := by simp [resolve, h]
  exact handle_of_refused hr

theorem handle_of_nowhere (hbrew : r.method.upper ≠ Http.Method.brew.name)
    (hpath : Target.ofPath? (Percent.decode r.path) = none) :
    d.handle db config keys r w =
      refusal w ⟨400, [], some (errorBody 400 "Invalid route".toList)⟩ :=
  handle_of_refused (resolve_of_nowhere hbrew hpath)

end

end Dispatcher

/-! ## Allowed methods -/

/-- The allowed methods are those that have an operation. -/
theorem Resource.mem_allowed_iff {t : Resource} {m : Http.Method} :
    m ∈ t.allowed ↔ ∃ op, t.operation? m = some op := by
  rw [← Option.isSome_iff_exists]
  cases t <;> cases m <;> decide

theorem Resource.allowed_ne_nil (t : Resource) : t.allowed ≠ [] := by
  cases t <;> decide

namespace Dispatcher

variable {δ : Type} {d : Dispatcher} {db : Database δ} {config : Settings} {keys : AccessKeys}
  {r : Http.Request} {w : World δ}

/-- How a refused method is shown: a verb in upper case, anything else as it was sent. -/
def shownMethod (r : Http.Request) : Text :=
  match Http.Method.ofName? r.method.upper with
  | some m => m.name
  | none => r.method

theorem resolve_of_refused_method {t : Target} (hbrew : r.method.upper ≠ Http.Method.brew.name)
    (ht : Target.ofPath? (Percent.decode r.path) = some t)
    (hmethod : ∀ m ∈ t.resource.allowed, m.name ≠ r.method.upper) :
    resolve r = .error (refuse (shownMethod r) t) := by
  cases hm : Http.Method.ofName? r.method.upper with
  | none => simp [resolve, hbrew, ht, shownMethod, hm]
  | some m =>
    have hop : t.resource.operation? m = none := by
      refine Option.eq_none_iff_forall_ne_some.mpr fun op hop => ?_
      have hname := Http.Method.ofName?_eq_some_iff.mp hm
      exact hmethod m (Resource.mem_allowed_iff.mpr ⟨op, hop⟩) hname.symm
    simp [resolve, hbrew, ht, shownMethod, hm, hop]

theorem handle_of_refused_method {t : Target} (hbrew : r.method.upper ≠ Http.Method.brew.name)
    (ht : Target.ofPath? (Percent.decode r.path) = some t)
    (hmethod : ∀ m ∈ t.resource.allowed, m.name ≠ r.method.upper) :
    d.handle db config keys r w = refusal w
      ⟨405, [("Allow".toList, Text.joined ", ".toList (t.resource.allowed.map (·.name)))],
        some (errorBody 405 ("Method ".toList ++ shownMethod r ++ " not allowed".toList))⟩ := by
  have hresponse := Http.Response.ofFailure_eq (refuse (shownMethod r) t)
  have hallowed : (refuse (shownMethod r) t).allowed ≠ [] :=
    fun h => Resource.allowed_ne_nil _ (List.map_eq_nil_iff.mp h)
  rw [if_pos ⟨rfl, hallowed⟩] at hresponse
  rw [handle_of_refused (resolve_of_refused_method hbrew ht hmethod)]
  exact congrArg (refusal w) hresponse

/-! ## Every request -/

/-- No character beyond ASCII helps to spell the verb that is always refused. -/
theorem upper_eq_brew_iff {s : Text} :
    s.upper = Http.Method.brew.name ↔ s.map Char.toUpper = Http.Method.brew.name :=
  Text.upper_eq_iff (by decide +kernel)

/-- **Stages.** A request is refused in one of three ways, with nothing called and only the failure
counted (`refusal`), or it takes its `Course`, and the calls on this are those of the answer. -/
theorem handle_stages (d : Dispatcher) (db : Database δ) (config : Settings) (keys : AccessKeys)
    (r : Http.Request) (w : World δ) :
    let answer := d.handle db config keys r w
    (r.method.map Char.toUpper = Http.Method.brew.name →
      answer = refusal w ⟨418, [], some (errorBody 418 "I'm a teapot!".toList)⟩) ∧
    (r.method.map Char.toUpper ≠ Http.Method.brew.name →
      (Target.ofPath? (Percent.decode r.path) = none →
        answer = refusal w ⟨400, [], some (errorBody 400 "Invalid route".toList)⟩) ∧
      ∀ t, Target.ofPath? (Percent.decode r.path) = some t →
        (∀ m, m ∈ t.resource.allowed ↔ ∃ op, t.resource.operation? m = some op) ∧
        ((∀ m ∈ t.resource.allowed, m.name ≠ r.method.upper) →
          answer = refusal w
            ⟨405, [("Allow".toList, Text.joined ", ".toList (t.resource.allowed.map (·.name)))],
              some (errorBody 405 ("Method ".toList ++ shownMethod r ++ " not allowed".toList))⟩) ∧
        ∀ m ∈ t.resource.allowed, m.name = r.method.upper →
          ∃ op calls x s, t.resource.operation? m = some op ∧
            Course d db ⟨t, m, op⟩ (event ⟨t, m, op⟩ r config keys) ⟨w, Exchange.initial⟩
              calls x s ∧
            answer = answerOf m (x, s) ∧ answer.calls = calls) := by
  intro answer
  rw [Ne, ← upper_eq_brew_iff]
  refine ⟨handle_of_brew, fun hbrew => ⟨handle_of_nowhere hbrew, fun t ht => ?_⟩⟩
  refine ⟨fun m => Resource.mem_allowed_iff, handle_of_refused_method hbrew ht, ?_⟩
  intro m hm hname
  obtain ⟨op, hop⟩ := Resource.mem_allowed_iff.mp hm
  have hr : resolve r = .ok ⟨t, m, op⟩ :=
    resolve_of_verb hname.symm (fun h => hbrew (hname.symm.trans (congrArg _ h))) ht hop
  obtain ⟨calls, x, s, hcourse, hhandle⟩ := exists_course d db config keys w hr
  refine ⟨op, calls, x, s, hop, hcourse, hhandle, ?_⟩
  have hcalls : answer.calls = s.calls := by
    rw [show answer = _ from hhandle, answerOf_calls]
  rw [hcalls, hcourse.calls]
  rfl

/-- Hooks of which one stops those before an operation and another one breaks off those after it;
the first to subscribe has its turn behind both. -/
def meddlers : List Hook :=
  [Hook.scripted "late".toList [("status.get.pre".toList, 0), ("status.get.post".toList, 0)]
      ⟨[], none, none, .proceed⟩,
    Hook.scripted "halt".toList [("status.get.pre".toList, 10)] ⟨[], none, none, .stop⟩,
    Hook.scripted "broken".toList [("status.get.post".toList, 10)]
      ⟨[], none, some (.defect (.declared "ValueError".toList "no".toList)), .proceed⟩]

/-- A request for a path by a method. -/
def asking (method path : Text) : Http.Request :=
  { tokenless with method := method, path := path }

/-- Where hooks meddle, refusals come before them, and the status is shown to nobody: the operation
is done although a hook has stopped, and nobody is told after the one that broke off. -/
theorem handle_stages_meddled :
    ∃ d, build .standard none meddlers = .ok d ∧
      let handle := fun r => d.handle (.inMemory true) .standard [] r inhabited
      handle (asking "bReW".toList "/nowhere".toList) =
        refusal inhabited ⟨418, [], some (errorBody 418 "I'm a teapot!".toList)⟩ ∧
      handle (asking "put".toList "/nowhere".toList) =
        refusal inhabited ⟨400, [], some (errorBody 400 "Invalid route".toList)⟩ ∧
      handle (asking "put".toList "/status/".toList) = refusal inhabited
        ⟨405, [("Allow".toList, "GET, HEAD".toList)],
          some (errorBody 405 "Method PUT not allowed".toList)⟩ ∧
      ∃ x s, Course d (.inMemory true) ⟨.status, .get, .showStatus⟩
        (event ⟨.status, .get, .showStatus⟩ (asking "get".toList "/status".toList) .standard [])
        ⟨inhabited, Exchange.initial⟩
        [.hook "halt".toList "status.get.pre".toList, .operation .showStatus,
          .hook "broken".toList "status.get.post".toList] x s ∧
        handle (asking "get".toList "/status".toList) = answerOf .get (x, s) := by
  obtain ⟨d, hd, hcalls⟩ : ∃ d, build .standard none meddlers = .ok d ∧
      decide ((d.handle (.inMemory true) .standard [] (asking "get".toList "/status".toList)
        inhabited).calls = [.hook "halt".toList "status.get.pre".toList, .operation .showStatus,
          .hook "broken".toList "status.get.post".toList]) = true :=
    Except.exists_ok_of_any (by decide +kernel)
  have hstages := fun method path =>
    handle_stages d (.inMemory true) .standard [] (asking method path) inhabited
  refine ⟨d, hd, (hstages _ _).1 (by decide), ?_, ?_, ?_⟩
  · exact ((hstages _ _).2 (by decide)).1 (by decide +kernel)
  · exact (((hstages _ _).2 (by decide)).2 .status (by decide +kernel)).2.1 (by decide +kernel)
  · obtain ⟨op, calls, x, s, hop, hcourse, hanswer, hall⟩ :=
      (((hstages "get".toList "/status".toList).2 (by decide)).2 .status (by decide +kernel)).2.2
        .get (by decide) (by decide +kernel)
    cases hop
    rw [of_decide_eq_true hcalls] at hall
    exact ⟨x, s, hall ▸ hcourse, hanswer⟩

end Dispatcher

end AliasGate
