import AliasGate.Proofs.Dispatch.Authorization
import AliasGate.Proofs.Dispatch.Frames

/-!
# Who writes

On a server without hooks, which requests of a run can change the stored records.

* `Dispatcher.Step`, `Dispatcher.steps`: a run of requests, with the world before each of them.
* `Permit`: the verdicts under which records may change, each with its grounds.
* `Dispatcher.handle_writes_permitted`: a request that changes records was checked, and the verdict
  was such a permit.
* `Dispatcher.steps_write_permitted`: the same for every request of every run.
* `Dispatcher.exempt_deletion`: the filter's exemption is a permit of its own: it lets records be
  deleted without a token.
-/

namespace AliasGate

open AliasGate.Action (Keeps)

/-! ## Permits -/

/-- A verdict that lets a request change records, with its grounds. -/
inductive Permit (s : Signer) (filter : Transformation.Filter) (e : Event) : Verdict → Prop
  | verified (h : Signed s e) : Permit s filter e .verified
  | exempt (h : filter.isExempt e.request.transformationNames = true) : Permit s filter e .exempt

namespace Dispatcher

section
variable {d : Dispatcher} {healthy : Bool} {w : World Store}

/-- A guard that is alone before an operation lets nothing go on without counting a permit. -/
theorem guard_alone {g : Guard} {e : Event} {stage : Stage Store}
    (hl : d.registry.listeners (e.name ++ preSuffix) = [.guard g])
    (h : (d.publish (.inMemory healthy) ".pre" e).perform ⟨w, Exchange.initial⟩ = (.ok (), stage)) :
    ∃ v, Permit g.signer g.filter e v ∧ stage.metrics.checks = w.metrics.checks ++ [v] := by
  have hfinding : Guard.Finding g (e.renamed (e.name ++ preSuffix))
      (g.judge (e.renamed (e.name ++ preSuffix)) Http.Response.initial) := Guard.judge_finding rfl
  have hpass : ∀ v, g.judge (e.renamed (e.name ++ preSuffix)) Http.Response.initial = .ok v →
      v.failure? = none → Permit g.signer g.filter e v →
      ∃ v, Permit g.signer g.filter e v ∧ stage.metrics.checks = w.metrics.checks ++ [v] := by
    intro v hj hf hv
    rw [publish_guard_passed hl hj hf] at h
    cases h
    exact ⟨v, hv, rfl⟩
  have hstop : ∀ {f : Failure} {x : Prop},
      RefusedAtOnce ((d.publish (.inMemory healthy) ".pre" e).perform ⟨w, Exchange.initial⟩)
        w.database f → x := by
    intro f x hs
    have hfailed := hs.failed
    rw [h] at hfailed
    cases hfailed
  generalize hj : g.judge (e.renamed (e.name ++ preSuffix)) Http.Response.initial = j at hfinding
  cases hfinding with
  | exempt hexempt => exact hpass _ hj rfl (.exempt hexempt)
  | verified _ hfirst hkey hurl hsign =>
    exact hpass _ hj rfl (.verified ⟨_, _, _, _, hfirst, hkey, hurl, hsign⟩)
  | missing | unknownKey | incorrect =>
    exact hstop (publish_stops hl (Listener.tell_guard_refused hj rfl) rfl id rfl)
  | unsigned => exact hstop (publish_stops hl (Listener.tell_guard_failed hj) rfl id rfl)

/-! ## Beyond the guard -/

/-- Without listeners after it, what follows an event before an operation counts no verdict. -/
theorem serve_checks {δ : Type} {db : Database δ} {order : Order} {e : Event} {s stage : Stage δ}
    (hl : d.registry.listeners (e.name ++ postSuffix) = [])
    (h : (d.publish db ".pre" e).perform s = (.ok (), stage)) :
    ((d.serve db order e).perform s).2.metrics.checks = stage.metrics.checks := by
  have hpost : Keeps (fun s : Stage δ => s.metrics) (d.publish db ".post" e) := by
    intro s
    rw [publish_eq, hl]
    rfl
  have hrest : Keeps (fun s : Stage δ => s.metrics) (do
      Stage.onExchange (Exchange.note (.operation order.operation))
      order.operation.perform db d.idLength e.request
      d.publish db ".post" e
      if order.method = .head then
        Stage.onExchange (Exchange.change fun r => { r with model := none })
      else pure ()) := by
    refine Keeps.bind (Stage.onExchange_keeps_metrics _) fun _ => ?_
    refine Keeps.bind (Operation.perform_keeps_aside Stage.aside_metrics db _ _ _) fun _ => ?_
    refine Keeps.bind hpost fun _ => ?_
    split
    · exact Stage.onExchange_keeps_metrics _
    · exact Keeps.pure _ _
  unfold serve
  rw [Action.perform_bind, h, Action.andThen_ok]
  exact congrArg Metrics.checks (hrest stage)

/-- Without hooks, a request for an operation that changes no records keeps them and the ids to
come. -/
theorem serve_keeps_stock (hd : d.Hookless) {order : Order} {e : Event}
    (h : order.operation.writes = false) :
    Keeps (fun s : Stage Store => s.stock) (d.serve (.inMemory healthy) order e) := by
  refine Keeps.bind (publish_keeps_stock (hd.unhooked _) healthy) fun _ => ?_
  refine Keeps.bind (Stage.onExchange_keeps_stock _) fun _ => ?_
  refine Keeps.bind (Operation.perform_keeps_stock healthy _ _ h) fun _ => ?_
  refine Keeps.bind (publish_keeps_stock (hd.unhooked _) healthy) fun _ => ?_
  split
  · exact Stage.onExchange_keeps_stock _
  · exact Keeps.pure _ _

end

/-! ## One request -/

/-- On a server without hooks, a request that changes records counts a permit, and nothing else. -/
theorem handle_writes_permitted {settings : Settings} {d : Dispatcher} {s : Signer}
    (hd : Wired d s settings []) (healthy : Bool) (config : Settings) (keys : AccessKeys)
    (r : Http.Request) (w : World Store)
    (h : (d.handle (.inMemory healthy) config keys r w).world.database ≠ w.database) :
    ∃ order v, resolve r = .ok order ∧ order.operation.writes = true ∧
      Permit s settings.filter (event order r config keys) v ∧
      (d.handle (.inMemory healthy) config keys r w).world.metrics.checks =
        w.metrics.checks ++ [v] := by
  rw [handle_database] at h
  rw [handle_checks]
  unfold process at h ⊢
  cases hr : resolve r with
  | error f =>
    rw [hr] at h
    exact absurd rfl h
  | ok order =>
    simp only [hr, Action.perform_bind, Action.perform_ofExcept_ok, Action.andThen_ok] at h ⊢
    have hwrites : order.operation.writes = true := by
      cases hw : order.operation.writes with
      | true => rfl
      | false => exact absurd (congrArg Prod.fst (serve_keeps_stock hd.hookless hw _)) h
    have hop := resolve_operation hr
    have ht : order.target.resource ≠ .status ∧ order.target.resource ≠ .globalShortUrl := by
      rcases Operation.resource_of_writes hop hwrites with ht | ht <;> rw [ht] <;> decide
    have hpre : d.registry.listeners ((event order r config keys).name ++ preSuffix) =
        [.guard (guardOf s settings)] := by
      have hl := listeners_before_nil hd ht.1 hop
      rw [ownListeners, if_neg ht.2] at hl
      exact hl
    have hpost : d.registry.listeners ((event order r config keys).name ++ postSuffix) = [] :=
      hd.quiet hooksComeBefore_nil _
    rcases hstage : (d.publish (.inMemory healthy) ".pre" (event order r config keys)).perform
      ⟨w, Exchange.initial⟩ with ⟨fault | _, stage⟩
    · rw [serve, Action.perform_bind, hstage, Action.andThen_error] at h
      exact absurd (congrArg Prod.fst (publish_stock (hd.hookless.unhooked _) hstage)) h
    · obtain ⟨v, hv, hchecks⟩ := guard_alone hpre hstage
      exact ⟨order, v, rfl, hwrites, hv, (serve_checks hpost hstage).trans hchecks⟩

/-! ## Runs -/

/-- A handled request: the world before it, and its answer. -/
structure Step where
  request : Http.Request
  before : World Store
  answer : Answer Store

/-- The run of a list of requests, each in the world that the one before it left. -/
def steps (d : Dispatcher) (db : Database Store) (config : Settings) (keys : AccessKeys) :
    List Http.Request → World Store → List Step
  | [], _ => []
  | r :: rs, w =>
    ⟨r, w, d.handle db config keys r w⟩ ::
      steps d db config keys rs (d.handle db config keys r w).world

/-- Each step of a run is the handling of its request. -/
theorem mem_steps {d : Dispatcher} {db : Database Store} {config : Settings} {keys : AccessKeys}
    {rs : List Http.Request} {w : World Store} {step : Step}
    (h : step ∈ d.steps db config keys rs w) :
    step.answer = d.handle db config keys step.request step.before := by
  induction rs generalizing w with
  | nil => cases h
  | cons r rs ih =>
    rcases List.mem_cons.mp h with rfl | hrest
    · rfl
    · exact ih hrest

/-- **No write without a permit.** On a server without hooks, each request of a run after which the
stored records differ from those before it counted one verdict more: that its token was found to
sign a form of its URL or else, only if the configured filter exempts its transformations, that it
is exempt. -/
theorem steps_write_permitted {settings : Settings} {offered : Option (Option Signer)}
    {d : Dispatcher} (hd : build settings offered [] = .ok d) (healthy : Bool)
    (config : Settings) (keys : AccessKeys) (rs : List Http.Request) (w : World Store) :
    ∃ s, signer settings offered = .ok (some s) ∧
      ∀ step ∈ d.steps (.inMemory healthy) config keys rs w,
        step.answer.world.database ≠ step.before.database →
        ∃ order v, resolve step.request = .ok order ∧ order.operation.writes = true ∧
          Permit s settings.filter (event order step.request config keys) v ∧
          step.answer.world.metrics.checks = step.before.metrics.checks ++ [v] := by
  obtain ⟨s, hs, hwired⟩ := build_ok hd
  refine ⟨s, hs, fun step hstep hdiffers => ?_⟩
  rw [mem_steps hstep] at hdiffers ⊢
  exact handle_writes_permitted hwired healthy config keys step.request step.before hdiffers

/-- Deletes the short URLs of an image, with further arguments. -/
def deletion (query : String) : Http.Request :=
  ⟨"DELETE".toList, "http".toList, "imbo".toList, "/users/christer/images/abc/shortUrls".toList,
    query.toList, [], {}, [], 970⟩

/-- A world with one short URL of that image. -/
def inhabited : World Store :=
  ⟨[("aaaaaaa".toList, ⟨"christer".toList, "abc".toList, none, []⟩)], .ofScript [], .zero⟩

/-- A deletion that is signed, by a signer with one signature for everything. -/
theorem steps_write_permitted_signed :
    ∃ d, build .standard
        (some (some ⟨.custom, ["accessToken".toList], fun _ _ _ => .ok "yes".toList⟩)) [] = .ok d ∧
      ∃ step ∈ d.steps (.inMemory true) .standard [("christer".toList, "key".toList)]
          [deletion "accessToken=yes"] inhabited,
        step.answer.world.database ≠ step.before.database ∧
        step.answer.world.metrics.checks = step.before.metrics.checks ++ [.verified] := by
  obtain ⟨d, hd, hempty⟩ : ∃ d, build .standard
      (some (some ⟨.custom, ["accessToken".toList], fun _ _ _ => .ok "yes".toList⟩)) [] = .ok d ∧
        (d.handle (.inMemory true) .standard [("christer".toList, "key".toList)]
          (deletion "accessToken=yes") inhabited).world.database.isEmpty = true :=
    Except.exists_ok_of_any (by decide +kernel)
  have hdiffers : (d.handle (.inMemory true) .standard [("christer".toList, "key".toList)]
      (deletion "accessToken=yes") inhabited).world.database ≠ inhabited.database := by
    intro h
    rw [h] at hempty
    cases hempty
  obtain ⟨s, -, hsteps⟩ := steps_write_permitted hd true .standard
    [("christer".toList, "key".toList)] [deletion "accessToken=yes"] inhabited
  obtain ⟨order, v, -, -, hpermit, hchecks⟩ := hsteps _ List.mem_cons_self hdiffers
  refine ⟨d, hd, _, List.mem_cons_self, hdiffers, ?_⟩
  cases hpermit with
  | verified => exact hchecks
  | exempt h => cases h

/-- A server that exempts the drawing of a border. -/
def lenient : Settings := { Settings.standard with whitelist := ["border".toList] }

/-- A deletion that asks for an exempt transformation needs no token. -/
theorem exempt_deletion :
    ∃ d, build lenient none [] = .ok d ∧
      ∃ step ∈ d.steps (.inMemory true) .standard [] [deletion "t[]=border"] inhabited,
        step.answer.world.database ≠ step.before.database ∧
        step.answer.world.metrics.checks = step.before.metrics.checks ++ [.exempt] := by
  obtain ⟨d, hd, hrun⟩ : ∃ d, build lenient none [] = .ok d ∧
      ((d.handle (.inMemory true) .standard [] (deletion "t[]=border")
          inhabited).world.database.isEmpty &&
        decide ((d.handle (.inMemory true) .standard [] (deletion "t[]=border")
          inhabited).world.metrics.checks = [.exempt])) = true :=
    Except.exists_ok_of_any (by decide +kernel)
  obtain ⟨hempty, hchecks⟩ := Bool.and_eq_true_iff.mp hrun
  refine ⟨d, hd, _, List.mem_cons_self, fun h => ?_, of_decide_eq_true hchecks⟩
  rw [h] at hempty
  cases hempty

end Dispatcher

end AliasGate
