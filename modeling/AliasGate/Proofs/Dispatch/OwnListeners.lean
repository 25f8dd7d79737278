import AliasGate.Proofs.Dispatch.Wiring
import AliasGate.Proofs.Event.Publishing
import AliasGate.Proofs.ShortUrl.Allocation
import AliasGate.Proofs.Token.Finding

/-!
# Guard and resolver

The effect of the guard and of the resolver on the stage of a request, and what a refusal by either
does to the whole request.

* `Listener.tell_guard_*`, `Listener.tell_resolver_*`: one equation for each way in which either can
  answer.
* `Dispatcher.resolve_eq_ok_iff`: when a request asks for something.
* `Dispatcher.handle_of_fault`: a fault on the way is the answer, and nothing is done after it.
-/

namespace AliasGate

namespace Stage

variable {δ : Type}

/-- The stage with one call more. -/
def noting (s : Stage δ) (c : Call) : Stage δ := { s with calls := s.calls ++ [c] }

/-- The stage with one verdict more counted. -/
def counting (s : Stage δ) (v : Verdict) : Stage δ :=
  { s with metrics := { s.metrics with checks := s.metrics.checks ++ [v] } }

/-- The stage with the mark of a public short URL on its response. -/
def marking (s : Stage δ) (id : Text) : Stage δ :=
  { s with response := s.response.setHeader Http.Response.shortUrlHeader id }

@[simp] theorem perform_note (s : Stage δ) (c : Call) :
    (onExchange (Exchange.note c)).perform s = (.ok (), s.noting c) := rfl

@[simp] theorem perform_count (s : Stage δ) (v : Verdict) :
    (count v).perform s = (.ok (), s.counting v) := rfl

@[simp] theorem noting_database (s : Stage δ) (c : Call) : (s.noting c).database = s.database := rfl

@[simp] theorem noting_metrics (s : Stage δ) (c : Call) : (s.noting c).metrics = s.metrics := rfl

@[simp] theorem noting_response (s : Stage δ) (c : Call) : (s.noting c).response = s.response := rfl

@[simp] theorem noting_calls (s : Stage δ) (c : Call) : (s.noting c).calls = s.calls ++ [c] := rfl

@[simp] theorem counting_database (s : Stage δ) (v : Verdict) :
    (s.counting v).database = s.database := rfl

@[simp] theorem counting_checks (s : Stage δ) (v : Verdict) :
    (s.counting v).metrics.checks = s.metrics.checks ++ [v] := rfl

@[simp] theorem counting_response (s : Stage δ) (v : Verdict) :
    (s.counting v).response = s.response := rfl

@[simp] theorem counting_calls (s : Stage δ) (v : Verdict) : (s.counting v).calls = s.calls := rfl

@[simp] theorem marking_database (s : Stage δ) (id : Text) :
    (s.marking id).database = s.database := rfl

@[simp] theorem marking_metrics (s : Stage δ) (id : Text) : (s.marking id).metrics = s.metrics := rfl

@[simp] theorem marking_calls (s : Stage δ) (id : Text) : (s.marking id).calls = s.calls := rfl

/-- The marked response shows the mark. -/
theorem marking_hasHeader (s : Stage δ) (id : Text) :
    (s.marking id).response.hasHeader Http.Response.shortUrlHeader = true := by
  have hput : ∀ headers : Keyed Text Text,
      (Keyed.put headers Http.Response.shortUrlHeader id).any
        (fun h => h.1.lower == Http.Response.shortUrlHeader.lower) = true := by
    intro headers
    induction headers with
    | nil => simp [Keyed.put]
    | cons h headers ih =>
      unfold Keyed.put
      split
      next hk => simp [hk]
      next => rw [List.any_cons, ih, Bool.or_true]
  exact hput s.response.headers

end Stage

/-! ## The guard -/

namespace Listener

variable {δ : Type} {db : Database δ} {g : Guard} {e : Event} {s : Stage δ}

theorem tell_guard_failed {f : Failure} (h : g.judge e s.response = .error f) :
    (tell db (.guard g) e).perform s = (.error (.failure f), s.noting (.guard e.name)) := by
  simp [tell, check, h]

theorem tell_guard_refused {v : Verdict} {f : Failure} (h : g.judge e s.response = .ok v)
    (hf : v.failure? = some f) :
    (tell db (.guard g) e).perform s =
      (.error (.failure f), (s.noting (.guard e.name)).counting v) := by
  simp [tell, check, h, hf]

theorem tell_guard_passed {v : Verdict} (h : g.judge e s.response = .ok v)
    (hf : v.failure? = none) :
    (tell db (.guard g) e).perform s =
      (.ok .proceed, (s.noting (.guard e.name)).counting v) := by
  simp [tell, check, h, hf]

end Listener

/-! ## The resolver -/

namespace Listener

variable {healthy : Bool} {e : Event} {s : Stage Store}

theorem tell_resolver_absent (h : s.database.lookup? e.request.route.givenId = none) :
    (tell (.inMemory healthy) .resolver e).perform s =
      (.error (.failure .shortUrlNotFound), s.noting (.resolver e.name)) := by
  simp [tell, resolve, Stage.onDatabase, h]
  rfl

theorem tell_resolver_found {u : ShortUrl}
    (h : s.database.lookup? e.request.route.givenId = some u) :
    (tell (.inMemory healthy) .resolver e).perform s =
      (.ok .proceed, (s.noting (.resolver e.name)).marking e.request.route.givenId) := by
  simp [tell, resolve, Stage.onDatabase, h]
  rfl

end Listener

/-! ## Resolving -/

theorem Http.Method.ofName?_eq_some_iff {s : Text} {m : Http.Method} :
    ofName? s = some m ↔ s = m.name := by
  constructor
  · intro h
    have hname := List.find?_some h
    exact (of_decide_eq_true hname).symm
  · rintro rfl
    cases m <;> rfl

namespace Dispatcher

section
variable {r : Http.Request} {order : Order}

/-- When a request asks for something, and for what. -/
theorem resolve_eq_ok_iff : resolve r = .ok order ↔ r.method.upper ≠ Http.Method.brew.name ∧
    Target.ofPath? (Percent.decode r.path) = some order.target ∧
    Http.Method.ofName? r.method.upper = some order.method ∧
    order.target.resource.operation? order.method = some order.operation := by
  constructor
  · intro h
    unfold resolve at h
    simp only at h
    split at h
    · cases h
    next hbrew =>
      split at h
      · cases h
      next htarget =>
        split at h
        · cases h
        next hmethod =>
          split at h <;> cases h
          next hop => exact ⟨hbrew, htarget, hmethod, hop⟩
  · rintro ⟨hbrew, htarget, hmethod, hop⟩
    simp [resolve, hbrew, htarget, hmethod, hop]

/-- What is asked for can be done with what the path leads to. -/
theorem resolve_operation (h : resolve r = .ok order) :
    order.target.resource.operation? order.method = some order.operation :=
  (resolve_eq_ok_iff.mp h).2.2.2

/-- A verb that is no refusal resolves by the path and by what can be done there. -/
theorem resolve_of_verb {m : Http.Method} (hm : r.method.upper = m.name) (hbrew : m ≠ .brew)
    {t : Target} {op : Operation} (ht : Target.ofPath? (Percent.decode r.path) = some t)
    (hop : t.resource.operation? m = some op) : resolve r = .ok ⟨t, m, op⟩ := by
  refine resolve_eq_ok_iff.mpr ⟨?_, ht, Http.Method.ofName?_eq_some_iff.mpr hm, hop⟩
  rw [hm]
  cases m with
  | brew => exact absurd rfl hbrew
  | _ => decide

/-- A path that leads nowhere is refused whatever else is asked. -/
theorem resolve_of_nowhere (hbrew : r.method.upper ≠ Http.Method.brew.name)
    (ht : Target.ofPath? (Percent.decode r.path) = none) : resolve r = .error .invalidRoute := by
  simp [resolve, hbrew, ht]

end

/-! ## Telling the listeners of an event -/

variable {δ : Type}

theorem publish_eq (d : Dispatcher) (db : Database δ) (moment : String) (e : Event) (s : Stage δ) :
    (d.publish db moment e).perform s =
      Action.andThen
        ((Registry.notify (fun l => Listener.tell db l (e.renamed (e.name ++ moment.toList)))
          (d.registry.listeners (e.name ++ moment.toList))).perform s)
        fun _ => pure () := by
  simp only [publish, Registry.publish, Action.perform_bind]

/-- What stops the first listener stops the event. -/
theorem publish_fault {d : Dispatcher} {db : Database δ} {moment : String} {e : Event}
    {l : Listener} {rest : List Listener} {s t : Stage δ} {fault : Fault}
    (hl : d.registry.listeners (e.name ++ moment.toList) = l :: rest)
    (ht : (Listener.tell db l (e.renamed (e.name ++ moment.toList))).perform s =
      (.error fault, t)) : (d.publish db moment e).perform s = (.error fault, t) := by
  have hn : (Registry.notify
      (fun l => Listener.tell db l (e.renamed (e.name ++ moment.toList))) (l :: rest)).perform s =
        _ := Registry.notify_fault ht
  rw [publish_eq, hl, hn, Action.andThen_error]

/-- A guard that is alone at an event and lets it pass counts its verdict. -/
theorem publish_guard_passed {d : Dispatcher} {db : Database δ} {moment : String} {e : Event}
    {g : Guard} {s : Stage δ} {v : Verdict}
    (hl : d.registry.listeners (e.name ++ moment.toList) = [.guard g])
    (hj : g.judge (e.renamed (e.name ++ moment.toList)) s.response = .ok v)
    (hf : v.failure? = none) :
    (d.publish db moment e).perform s =
      (.ok (), (s.noting (.guard (e.name ++ moment.toList))).counting v) := by
  have hn : (Registry.notify
      (fun l => Listener.tell db l (e.renamed (e.name ++ moment.toList))) [.guard g]).perform s =
        _ := Registry.notify_go (Listener.tell_guard_passed hj hf) nofun
  rw [publish_eq, hl, hn]
  rfl

/-- A fault before the operation ends the request. -/
theorem handle_of_fault {d : Dispatcher} {db : Database δ} {config : Settings} {keys : AccessKeys}
    {r : Http.Request} {order : Order} {w : World δ} {fault : Fault} {s : Stage δ}
    (hr : resolve r = .ok order)
    (h : (d.publish db ".pre" (event order r config keys)).perform ⟨w, Exchange.initial⟩ =
      (.error fault, s)) :
    d.handle db config keys r w = failed fault.told s := by
  unfold handle process
  rw [hr]
  simp only [Action.perform_bind, Action.perform_ofExcept_ok, Action.andThen_ok, serve, h,
    Action.andThen_error]

end Dispatcher

end AliasGate
