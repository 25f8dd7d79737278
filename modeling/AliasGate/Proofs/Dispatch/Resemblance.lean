import AliasGate.Proofs.Dispatch.Replies

/-!
# Requests that resemble each other

Of a request that asks for something, a server without hooks looks at the URL, at what the route
names, at the body, and at the header that names a public key. The method counts only for what is
asked for, and no other header counts at all.

* `Http.Request.Resembles`, `Event.Resembles`: requests and events that agree in these.
* `Guard.judge_resembling`, `Operation.perform_resembling`: guard and operations cannot tell them
  apart.
* `Stage.Resembles`: two stages of which only the calls differ. Listeners and operations keep them so
  (`Listener.tell_matches`, `Operation.perform_matches`).
* `Dispatcher.handle_resembling`: requests for the same operation that resemble each other go the
  same way; of the same method, they are answered alike (`Dispatcher.handle_of_resembling`).
-/

namespace AliasGate

open AliasGate.Action (Matches)

/-! ## Requests and events -/

/-- Requests that differ at most in their methods and in headers that name no public key. -/
structure Http.Request.Resembles (r r' : Http.Request) : Prop where
  scheme : r.scheme = r'.scheme
  host : r.host = r'.host
  path : r.path = r'.path
  query : r.query = r'.query
  publicKey : r.headers.get? publicKeyHeader = r'.headers.get? publicKeyHeader
  route : r.route = r'.route
  body : r.body = r'.body
  room : r.room = r'.room

/-- Events that differ at most in their names, of requests that resemble each other. -/
structure Event.Resembles (e e' : Event) : Prop where
  request : e.request.Resembles e'.request
  config : e.config = e'.config
  keys : e.keys = e'.keys

theorem Event.Resembles.renamed {e e' : Event} (h : e.Resembles e') (name name' : Text) :
    (e.renamed name).Resembles (e'.renamed name') :=
  ⟨h.request, h.config, h.keys⟩

theorem Http.Request.Resembles.publicKey_eq {r r' : Http.Request} (h : r.Resembles r') :
    r.publicKey = r'.publicKey := by
  simp only [Http.Request.publicKey, Http.Request.argument?, Http.Request.queryPairs, h.query,
    h.publicKey, h.route]

/-- The guard finds the same about both. -/
theorem Guard.judge_resembling (g : Guard) {e e' : Event} (h : e.Resembles e')
    (response : Http.Response) : g.judge e response = g.judge e' response := by
  have hurl : e.request.url = e'.request.url := by
    simp only [Http.Request.url, h.request.scheme, h.request.host, h.request.path, h.request.query]
  have hpairs : e.request.queryPairs = e'.request.queryPairs := by
    simp only [Http.Request.queryPairs, h.request.query]
  have hnames : e.request.transformationNames = e'.request.transformationNames := by
    simp only [Http.Request.transformationNames, Http.Request.transformations, hpairs]
  have htoken : g.token? e.request = g.token? e'.request := by
    simp only [Guard.token?, Http.Request.argument?, hpairs]
  have hjudge : g.judgeToken e = g.judgeToken e' := by
    funext key token
    unfold Guard.judgeToken Event.protocol
    rw [h.keys, h.request.publicKey_eq, hurl, h.config]
  unfold Guard.judge
  rw [hnames, htoken, hjudge]

/-- An operation does the same for both. -/
theorem Operation.perform_resembling {δ : Type} (db : Database δ) (idLength : Int)
    {r r' : Http.Request} (h : r.Resembles r') (op : Operation) :
    op.perform db idLength r = op.perform db idLength r' := by
  obtain ⟨method, scheme, host, path, query, headers, route, body, room⟩ := r
  obtain ⟨method', scheme', host', path', query', headers', route', body', room'⟩ := r'
  obtain ⟨rfl, rfl, rfl, rfl, -, rfl, rfl, rfl⟩ := h
  cases op <;> rfl

/-! ## Stages -/

/-- Stages of which at most the calls differ. -/
structure Stage.Resembles {δ : Type} (s t : Stage δ) : Prop where
  world : s.toWorld = t.toWorld
  response : s.response = t.response

namespace Stage

variable {δ α : Type}

theorem note_matches (c c' : Call) :
    Matches (Resembles (δ := δ)) (onExchange (Exchange.note c)) (onExchange (Exchange.note c')) :=
  fun _ _ h => ⟨rfl, h.world, h.response⟩

theorem change_matches (f : Http.Response → Http.Response) :
    Matches (Resembles (δ := δ)) (onExchange (Exchange.change f)) (onExchange (Exchange.change f)) :=
  fun _ _ h => ⟨rfl, h.world, congrArg f h.response⟩

theorem onDatabase_matches (a : Action δ α) :
    Matches Resembles (onDatabase a) (onDatabase a) := by
  rintro ⟨w, x⟩ ⟨w', x'⟩ ⟨hworld, hresponse⟩
  obtain rfl : w = w' := hworld
  exact ⟨rfl, rfl, hresponse⟩

theorem onAllocation_matches (a : Action (δ × IdSource) α) :
    Matches Resembles (onAllocation a) (onAllocation a) := by
  rintro ⟨w, x⟩ ⟨w', x'⟩ ⟨hworld, hresponse⟩
  obtain rfl : w = w' := hworld
  exact ⟨rfl, rfl, hresponse⟩

theorem Resembles.counting {s t : Stage δ} (h : s.Resembles t) (v : Verdict) :
    (s.counting v).Resembles (t.counting v) := by
  obtain ⟨w, x⟩ := s
  obtain ⟨w', x'⟩ := t
  obtain rfl : w = w' := h.world
  exact ⟨rfl, h.response⟩

end Stage

/-! ## Listeners -/

namespace Listener

variable {δ : Type}

theorem resolve_matches (db : Database δ) (r : Http.Request) :
    Matches Stage.Resembles (resolve db r) (resolve db r) := by
  refine Matches.bind (Stage.onDatabase_matches _) fun found => ?_
  cases found with
  | none => exact Matches.fail _ _
  | some u => exact Matches.pure _ u

/-- What the guard says is the same, so it counts the same and ends alike. -/
theorem tell_guard_matches (db : Database δ) (g : Guard) {e e' : Event} (h : e.Resembles e') :
    Matches Stage.Resembles (tell db (.guard g) e) (tell db (.guard g) e') := by
  intro s t hst
  have hnoted : (s.noting (.guard e.name)).Resembles (t.noting (.guard e'.name)) :=
    ⟨hst.world, hst.response⟩
  have hsame : g.judge e' t.response = g.judge e s.response := by
    rw [← hst.response, g.judge_resembling h]
  cases hj : g.judge e s.response with
  | error f =>
    rw [tell_guard_failed hj, tell_guard_failed (hsame.trans hj)]
    exact ⟨rfl, hnoted⟩
  | ok v =>
    cases hf : v.failure? with
    | some f =>
      rw [tell_guard_refused hj hf, tell_guard_refused (hsame.trans hj) hf]
      exact ⟨rfl, hnoted.counting v⟩
    | none =>
      rw [tell_guard_passed hj hf, tell_guard_passed (hsame.trans hj) hf]
      exact ⟨rfl, hnoted.counting v⟩

/-- Guard and resolver end alike. -/
theorem tell_matches (db : Database δ) {l : Listener} (hl : ∀ h, l ≠ .hook h) {e e' : Event}
    (h : e.Resembles e') : Matches Stage.Resembles (tell db l e) (tell db l e') := by
  cases l with
  | hook k => exact absurd rfl (hl k)
  | guard g => exact tell_guard_matches db g h
  | resolver =>
    refine Matches.bind (Stage.note_matches _ _) fun _ => ?_
    have hresolve : resolve (δ := δ) db e.request = resolve db e'.request := by
      simp only [resolve, h.request.route]
    rw [hresolve]
    refine Matches.bind (resolve_matches db _) fun _ => ?_
    rw [h.request.route]
    exact Matches.bind (Stage.change_matches _) fun _ => Matches.pure _ _

end Listener

/-- Telling in a row ends alike if telling each does. -/
theorem Registry.notify_matches {ℓ σ τ : Type} {R : σ → τ → Prop}
    {tell : ℓ → Action σ Event.Outcome} {tell' : ℓ → Action τ Event.Outcome} {ls : List ℓ}
    (h : ∀ l ∈ ls, Matches R (tell l) (tell' l)) : Matches R (notify tell ls) (notify tell' ls) := by
  induction ls with
  | nil => exact Matches.pure _ _
  | cons l ls ih =>
    have hrest := ih fun k hk => h k (List.mem_cons_of_mem l hk)
    refine Matches.bind (h l List.mem_cons_self) fun outcome => ?_
    cases outcome with
    | stop => exact Matches.pure _ _
    | _ => exact Matches.bind hrest fun _ => Matches.pure _ _

/-! ## Operations -/

namespace Operation

variable {δ : Type}

theorem owned_matches (db : Database δ) (r : Http.Request) :
    Matches Stage.Resembles (owned db r) (owned db r) := by
  refine Matches.bind (Stage.onDatabase_matches _) fun found => ?_
  cases found with
  | none => exact Matches.fail _ _
  | some u =>
    show Matches _ (if _ then _ else _) (if _ then _ else _)
    split
    · exact Matches.pure _ u
    · exact Matches.fail _ _

theorem perform_matches (db : Database δ) (idLength : Int) (r : Http.Request) (op : Operation) :
    Matches Stage.Resembles (op.perform db idLength r) (op.perform db idLength r) := by
  have hanswer : ∀ model : Json, Matches Stage.Resembles (answer (δ := δ) model) (answer model) :=
    fun model => Stage.change_matches _
  cases op with
  | showStatus =>
    refine Matches.bind (Stage.onDatabase_matches _) fun healthy => ?_
    refine Matches.bind (hanswer _) fun _ => ?_
    cases healthy with
    | true => exact Matches.pure _ _
    | false => exact Stage.change_matches fun r => { r with status := 503 }
  | showUser => exact hanswer _
  | createShortUrl =>
    refine Matches.bind (Matches.ofResult _ _) fun u => ?_
    refine Matches.bind (Stage.onAllocation_matches _) fun id => ?_
    exact Matches.bind (Stage.change_matches _) fun _ => hanswer _
  | deleteShortUrls => exact Matches.bind (Stage.onDatabase_matches _) fun _ => hanswer _
  | showShortUrl => exact Matches.bind (owned_matches db r) fun _ => hanswer _
  | deleteShortUrl =>
    refine Matches.bind (owned_matches db r) fun _ => ?_
    exact Matches.bind (Stage.onDatabase_matches _) fun _ => hanswer _
  | showGlobalShortUrl => exact Matches.bind (Listener.resolve_matches db r) fun _ => hanswer _

end Operation

/-! ## Requests from beginning to end -/

namespace Dispatcher

section
variable {settings : Settings} {s : Signer} {d : Dispatcher} {t : Resource} {m : Http.Method}
  {op : Operation}

/-- Without hooks, whatever method is used, the same listeners are told before an operation on a
resource, and none of them is a hook. -/
theorem listeners_before_eq (hd : Wired d s settings []) (hop : t.operation? m = some op) :
    d.registry.listeners (t.eventName m ++ preSuffix) =
      if t = .status then [] else ownListeners t (guardOf s settings) := by
  split
  next ht =>
    subst ht
    exact listeners_before_status hd hop
  next ht => exact listeners_before_nil hd ht hop

theorem not_hook_of_mem_ownListeners {g : Guard} {l : Listener}
    (hl : l ∈ if t = .status then [] else ownListeners t g) (h : Hook) : l ≠ .hook h := by
  rintro rfl
  unfold ownListeners at hl
  split at hl
  · cases hl
  · split at hl <;> simp at hl

end

section
variable {δ : Type} {settings : Settings} {s : Signer} {d : Dispatcher} {r r' : Http.Request}
  {order order' : Order}

theorem event_resembles (h : r.Resembles r') (ht : order.target = order'.target)
    (config : Settings) (keys : AccessKeys) :
    (event order r config keys).Resembles (event order' r' config keys) :=
  ⟨⟨h.scheme, h.host, h.path, h.query, h.publicKey, congrArg Target.params ht, h.body, h.room⟩,
    rfl, rfl⟩

/-- The listeners before the operation end alike. -/
theorem publish_matches (hd : Wired d s settings []) (hr : resolve r = .ok order)
    (hr' : resolve r' = .ok order') (ht : order.target = order'.target) (h : r.Resembles r')
    (db : Database δ) (config : Settings) (keys : AccessKeys) :
    Matches Stage.Resembles (d.publish db ".pre" (event order r config keys))
      (d.publish db ".pre" (event order' r' config keys)) := by
  have hl : d.registry.listeners ((event order r config keys).name ++ preSuffix) = _ :=
    listeners_before_eq hd (resolve_operation hr)
  have hl' : d.registry.listeners ((event order' r' config keys).name ++ preSuffix) = _ :=
    listeners_before_eq hd (resolve_operation hr')
  unfold publish Registry.publish
  rw [hl, hl', ht]
  refine Matches.bind (Registry.notify_matches fun l hmem => ?_) fun _ => Matches.pure _ _
  exact Listener.tell_matches db (not_hook_of_mem_ownListeners hmem)
    ((event_resembles h ht config keys).renamed _ _)

/-- The answers to endings that resemble each other leave the same behind, whatever the methods. -/
theorem answerOf_world {x y : Except Fault Unit × Stage δ} (hxy : x.1 = y.1)
    (h : x.2.Resembles y.2) (method method' : Http.Method) :
    (answerOf method x).world = (answerOf method' y).world := by
  obtain ⟨x, w, s⟩ := x
  obtain ⟨y, w', t⟩ := y
  obtain rfl : x = y := hxy
  obtain rfl : w = w' := h.world
  cases x <;> rfl

/-- For one method they show the same. -/
theorem answerOf_response {x y : Except Fault Unit × Stage δ} (hxy : x.1 = y.1)
    (h : x.2.Resembles y.2) (method : Http.Method) :
    (answerOf method x).response = (answerOf method y).response := by
  obtain ⟨x, s⟩ := x
  obtain ⟨y, t⟩ := y
  obtain rfl : x = y := hxy
  cases x with
  | error fault => rfl
  | ok =>
    have hresponse : s.response = t.response := h.response
    simp only [answerOf, hresponse]

/-- **Requests that resemble each other.** On a server without hooks, two requests for the same
operation that resemble each other end with the same result or fault, and on stages of which at most
the calls differ. -/
theorem handle_resembling (hd : Wired d s settings []) (hr : resolve r = .ok order)
    (hr' : resolve r' = .ok order') (ht : order.target = order'.target)
    (hop : order.operation = order'.operation) (h : r.Resembles r') (db : Database δ)
    (config : Settings) (keys : AccessKeys) (w : World δ) :
    ∃ x y : Except Fault Unit × Stage δ, x.1 = y.1 ∧ x.2.Resembles y.2 ∧
      ((d.process db config keys r).perform ⟨w, Exchange.initial⟩).1 = x.1 ∧
      d.handle db config keys r w = answerOf order.method x ∧
      d.handle db config keys r' w = answerOf order'.method y := by
  have hquiet := hd.quiet hooksComeBefore_nil
  have hexecute : Matches Stage.Resembles (d.execute db order (event order r config keys))
      (d.execute db order' (event order' r' config keys)) := by
    have hsame := Operation.perform_resembling db d.idLength
      (event_resembles h ht config keys).request order'.operation
    unfold execute
    rw [hop, hsame]
    exact Matches.bind (Stage.note_matches _ _) fun _ => Operation.perform_matches db d.idLength _ _
  have hboth := Matches.bind (publish_matches hd hr hr' ht h db config keys)
    (fun _ => hexecute) ⟨w, Exchange.initial⟩ ⟨w, Exchange.initial⟩ ⟨rfl, rfl⟩
  rw [Action.perform_bind, Action.perform_bind] at hboth
  refine ⟨_, _, hboth.1, hboth.2, ?_, handle_of_quiet hquiet hr, handle_of_quiet hquiet hr'⟩
  rw [perform_process_of_quiet hquiet hr]
  generalize Action.andThen _ (fun _ => d.execute db order (event order r config keys)) = x
  rcases x with ⟨fault | _, stage⟩
  · rfl
  · by_cases hhead : order.method = .head <;>
      simp only [Action.andThen_ok, close, hhead, ↓reduceIte] <;> rfl

/-- If they have the same method as well, they are answered alike and leave the same behind. -/
theorem handle_of_resembling (hd : Wired d s settings []) (hmethod : r.method = r'.method)
    (h : r.Resembles r') (db : Database δ) (config : Settings) (keys : AccessKeys) (w : World δ) :
    (d.handle db config keys r w).response = (d.handle db config keys r' w).response ∧
      (d.handle db config keys r w).world = (d.handle db config keys r' w).world := by
  have hresolve : resolve r' = resolve r := by simp only [resolve, hmethod, h.path]
  cases hr : resolve r with
  | error f =>
    rw [handle_of_refused hr, handle_of_refused (hresolve.trans hr)]
    exact ⟨rfl, rfl⟩
  | ok order =>
    obtain ⟨x, y, hxy, hstage, -, hanswer, hanswer'⟩ :=
      handle_resembling hd hr (hresolve.trans hr) rfl rfl h db config keys w
    rw [hanswer, hanswer']
    exact ⟨answerOf_response hxy hstage _, answerOf_world hxy hstage _ _⟩

end

end Dispatcher

end AliasGate
