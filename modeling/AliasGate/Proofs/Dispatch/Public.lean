import AliasGate.Proofs.Dispatch.Course
import AliasGate.Proofs.Dispatch.Failures

/-!
# Public short URLs

Who holds the path of a public short URL needs nothing else, on a server without hooks.

* `Dispatcher.handle_shown`, `Dispatcher.handle_absent`: a public short URL that is stored is shown
  to everybody; for another the guard is not even told.
* `Dispatcher.resolve_globalShortUrl`, `Dispatcher.resolve_showGlobalShortUrl`: its path is all that
  it takes to ask for it.
* `Dispatcher.handle_globalShortUrl`: how a request to see a public short URL is answered, and what
  is counted. Settings, keys and the rest of the request make no difference.
-/

namespace AliasGate

/-- A verdict against a request is answered by status 400. -/
theorem Verdict.status_of_failure? {v : Verdict} {f : Failure} (h : v.failure? = some f) :
    f.status = 400 := by
  cases v <;> cases h <;> rfl

namespace Dispatcher

section
variable {settings : Settings} {d : Dispatcher} {signer : Signer} {r : Http.Request} {id : Text}
  {m : Http.Method} {healthy : Bool} {config : Settings} {keys : AccessKeys}

/-! ## Guard and resolver -/

/-- Whoever asks for a public short URL that is stored passes, and the response is marked. -/
theorem publish_alias (healthy : Bool) {e : Event} {s : Stage Store} {t : ShortUrl} {g : Guard}
    (hl : d.registry.listeners (e.name ++ preSuffix) = [.resolver, .guard g])
    (hfound : s.database.lookup? e.request.route.givenId = some t) :
    (d.publish (.inMemory healthy) ".pre" e).perform s =
      (.ok (), (((s.noting (.resolver (e.name ++ preSuffix))).marking
        e.request.route.givenId).noting (.guard (e.name ++ preSuffix))).counting .bypassed) := by
  have hresolver : (Listener.tell (.inMemory healthy) .resolver
      (e.renamed (e.name ++ preSuffix))).perform s = _ :=
    Listener.tell_resolver_found hfound
  -- the mark makes the guard let the request pass
  have hmarked := Stage.marking_hasHeader (s.noting (.resolver (e.name ++ preSuffix)))
    e.request.route.givenId
  have hguard : (Listener.tell (.inMemory healthy) (.guard g)
      (e.renamed (e.name ++ preSuffix))).perform _ = _ :=
    Listener.tell_guard_passed (Guard.judge_marked hmarked) rfl
  have hrest : (Registry.notify (fun l =>
      Listener.tell (.inMemory healthy) l (e.renamed (e.name ++ preSuffix)))
      [.guard g]).perform _ = _ :=
    Registry.notify_go hguard nofun
  have hall : (Registry.notify (fun l =>
      Listener.tell (.inMemory healthy) l (e.renamed (e.name ++ preSuffix)))
      [.resolver, .guard g]).perform s = _ :=
    Registry.notify_go hresolver nofun
  rw [publish_eq, hl, hall]
  exact congrArg (fun x => Action.andThen (Action.andThen x _) _) hrest

/-- A public short URL that is stored is shown to everybody, under whatever settings, and only that
nothing had to be shown for it is counted. -/
theorem handle_shown (hd : Wired d signer settings [])
    (hr : resolve r = .ok ⟨.globalShortUrl id, m, .showGlobalShortUrl⟩) {w : World Store}
    {t : ShortUrl} (hfound : w.database.lookup? id = some t) :
    (d.handle (.inMemory healthy) config keys r w).response =
        ⟨200, [(Http.Response.shortUrlHeader, id)], if m = .head then none else some t.toJson⟩ ∧
      (d.handle (.inMemory healthy) config keys r w).world.metrics.checks =
        w.metrics.checks ++ [.bypassed] := by
  have hl := listeners_before_nil hd (t := Resource.globalShortUrl) nofun (resolve_operation hr)
  rw [ownListeners, if_pos rfl] at hl
  have hpublish := publish_alias healthy (s := ⟨w, Exchange.initial⟩)
    (e := event ⟨.globalShortUrl id, m, .showGlobalShortUrl⟩ r config keys) hl hfound
  have hexecuted : ∀ s : Stage Store, s.database = w.database →
      (d.execute (.inMemory healthy) ⟨.globalShortUrl id, m, .showGlobalShortUrl⟩
        (event ⟨.globalShortUrl id, m, .showGlobalShortUrl⟩ r config keys)).perform s =
      (.ok (), (s.noting (.operation .showGlobalShortUrl)).answering t.toJson) := by
    intro s hs
    have hfound' : (s.noting (.operation .showGlobalShortUrl)).database.lookup? id = some t := by
      rw [Stage.noting_database, hs]
      exact hfound
    rw [perform_execute, Operation.perform_showGlobalShortUrl]
    exact congrArg (fun found => Action.andThen (orAbsent found, _) _) hfound'
  rw [handle_of_quiet (hd.quiet hooksComeBefore_nil) hr, hpublish, Action.andThen_ok,
    hexecuted _ rfl]
  refine ⟨?_, rfl⟩
  by_cases hhead : m = .head
  · rw [if_pos hhead]
    exact if_pos hhead
  · rw [if_neg hhead]
    exact if_neg hhead

/-- A public short URL that is stored is shown to whoever gets it. -/
theorem handle_alias (hd : Wired d signer settings [])
    (hr : resolve r = .ok ⟨.globalShortUrl id, .get, .showGlobalShortUrl⟩) {w : World Store}
    {t : ShortUrl} (hfound : w.database.lookup? id = some t) :
    (d.handle (.inMemory healthy) config keys r w).response =
      ⟨200, [(Http.Response.shortUrlHeader, id)], some t.toJson⟩ :=
  (handle_shown hd hr hfound).1

/-- A public short URL that is not stored is not shown, and nothing is counted of the guard. -/
theorem handle_absent (hd : Wired d signer settings [])
    (hr : resolve r = .ok ⟨.globalShortUrl id, m, .showGlobalShortUrl⟩) {w : World Store}
    (habsent : w.database.lookup? id = none) :
    (d.handle (.inMemory healthy) config keys r w).response =
        Http.Response.ofFailure .shortUrlNotFound ∧
      (d.handle (.inMemory healthy) config keys r w).world.metrics.checks = w.metrics.checks := by
  have hl := listeners_before_nil hd (t := Resource.globalShortUrl) nofun (resolve_operation hr)
  rw [ownListeners, if_pos rfl] at hl
  -- the resolver comes first, so that the guard is not even told
  have hresolver : (Listener.tell (.inMemory healthy) .resolver
      ((event ⟨.globalShortUrl id, m, .showGlobalShortUrl⟩ r config keys).renamed
        (Resource.globalShortUrl.eventName m ++ preSuffix))).perform ⟨w, Exchange.initial⟩ = _ :=
    Listener.tell_resolver_absent habsent
  rw [handle_of_fault hr (publish_fault hl hresolver)]
  exact ⟨rfl, rfl⟩

/-! ## Asking for it -/

/-- To get a public short URL and to ask for its head is to see it. -/
theorem resolve_showGlobalShortUrl
    (hpath : Target.ofPath? (Percent.decode r.path) = some (.globalShortUrl id))
    (hmethod : r.method.upper = Http.Method.get.name ∨ r.method.upper = Http.Method.head.name) :
    ∃ m, (m = .head ↔ r.method.upper = Http.Method.head.name) ∧
      resolve r = .ok ⟨.globalShortUrl id, m, .showGlobalShortUrl⟩ := by
  rcases hmethod with hget | hhead
  · refine ⟨.get, iff_of_false nofun ?_, resolve_of_verb hget nofun hpath rfl⟩
    rw [hget]
    decide
  · exact ⟨.head, iff_of_true rfl hhead, resolve_of_verb hhead nofun hpath rfl⟩

/-- The path of a public short URL, in a request to get it, is all that it takes to ask for it. -/
theorem resolve_globalShortUrl (hid : Target.isId id = true)
    (hmethod : r.method.upper = Http.Method.get.name)
    (hpath : Percent.decode r.path = (Target.globalShortUrl id).path) :
    resolve r = .ok ⟨.globalShortUrl id, .get, .showGlobalShortUrl⟩ := by
  have htarget : Target.ofPath? (Percent.decode r.path) = some (.globalShortUrl id) := by
    rw [hpath]
    exact Target.ofPath?_path hid
  exact resolve_of_verb hmethod nofun htarget rfl

end

/-! ## The answer -/

/-- **Public short URLs.** Without hooks, the answer to a get or head of a `.globalShortUrl` depends
on `lookup?` alone: status 200, marked by the id and counted as `.bypassed`, or status 404, which
counts no verdict. -/
theorem handle_globalShortUrl {settings : Settings} {offered : Option (Option Signer)}
    {d : Dispatcher} (hd : build settings offered [] = .ok d) (healthy : Bool)
    (config : Settings) (keys : AccessKeys) (w : World Store) {r : Http.Request} {id : Text}
    (hpath : Target.ofPath? (Percent.decode r.path) = some (.globalShortUrl id))
    (hmethod : r.method.upper = Http.Method.get.name ∨ r.method.upper = Http.Method.head.name) :
    let answer := d.handle (.inMemory healthy) config keys r w
    (∀ t, w.database.lookup? id = some t →
      answer.response = ⟨200, [("X-Imbo-ShortUrl".toList, id)],
        if r.method.upper = Http.Method.head.name then none else some t.toJson⟩ ∧
      answer.world.metrics.checks = w.metrics.checks ++ [.bypassed]) ∧
    (w.database.lookup? id = none →
      answer.response = ⟨404, [], some (errorBody 404 "ShortURL not found".toList)⟩ ∧
      answer.world.metrics.checks = w.metrics.checks) ∧
    ∀ v f, Verdict.failure? v = some f → answer.response ≠ Http.Response.ofFailure f := by
  intro answer
  obtain ⟨signer, -, hwired⟩ := build_ok hd
  obtain ⟨m, hm, hr⟩ := resolve_showGlobalShortUrl hpath hmethod
  have hshown : ∀ t, w.database.lookup? id = some t →
      answer.response = ⟨200, [("X-Imbo-ShortUrl".toList, id)],
        if r.method.upper = Http.Method.head.name then none else some t.toJson⟩ ∧
      answer.world.metrics.checks = w.metrics.checks ++ [.bypassed] := by
    intro t hfound
    simp only [← hm]
    exact handle_shown hwired hr hfound
  have habsent : w.database.lookup? id = none →
      answer.response = ⟨404, [], some (errorBody 404 "ShortURL not found".toList)⟩ ∧
      answer.world.metrics.checks = w.metrics.checks := fun h => handle_absent hwired hr h
  refine ⟨hshown, habsent, fun v f hv hrefused => ?_⟩
  have hstatus : answer.response.status = 400 := by
    rw [hrefused]
    exact Verdict.status_of_failure? hv
  cases hlookup : w.database.lookup? id with
  | none =>
    rw [(habsent hlookup).1] at hstatus
    cases hstatus
  | some t =>
    rw [(hshown t hlookup).1] at hstatus
    cases hstatus

/-- A world in which a short URL is stored. -/
def shelved : World Store :=
  ⟨[("aaaaaaa".toList, ⟨"christer".toList, "abc".toList, none, []⟩)], .ofScript [], .zero⟩

/-- Asks for the head of a public short URL, with an unknown public key, a token that signs nothing
and a transformation. -/
def misplaced (path : String) : Http.Request :=
  ⟨"head".toList, "http".toList, "imbo".toList, path.toList,
    "t[]=border&accessToken=x&publicKey=nobody".toList, [], {}, [], 970⟩

/-- None of these stands in the way of a stored short URL. -/
theorem handle_globalShortUrl_misplaced :
    ∃ d, build .standard none [] = .ok d ∧
      Target.ofPath? (Percent.decode (misplaced "/s/aaaaaaa").path) =
        some (.globalShortUrl "aaaaaaa".toList) ∧
      (misplaced "/s/aaaaaaa").method.upper = Http.Method.head.name ∧
      let answer := d.handle (.inMemory true) .standard [] (misplaced "/s/aaaaaaa") shelved
      answer.response = ⟨200, [("X-Imbo-ShortUrl".toList, "aaaaaaa".toList)], none⟩ ∧
      answer.world.metrics.checks = [.bypassed] := by
  obtain ⟨d, hd, -⟩ : ∃ d, build .standard none [] = .ok d ∧ true = true :=
    Except.exists_ok_of_any (by decide +kernel)
  have hpath : Target.ofPath? (Percent.decode (misplaced "/s/aaaaaaa").path) =
      some (.globalShortUrl "aaaaaaa".toList) := by decide +kernel
  have hmethod : (misplaced "/s/aaaaaaa").method.upper = Http.Method.head.name := by decide
  obtain ⟨hshown, -, -⟩ := handle_globalShortUrl hd true .standard [] shelved hpath (.inr hmethod)
  obtain ⟨hresponse, hchecks⟩ := hshown _ rfl
  rw [if_pos hmethod] at hresponse
  exact ⟨d, hd, hpath, hmethod, hresponse, hchecks⟩

end Dispatcher

end AliasGate
