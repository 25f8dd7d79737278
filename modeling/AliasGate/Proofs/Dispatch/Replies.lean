import AliasGate.Proofs.Dispatch.Meaning

/-!
# What requests are answered with

The status of every answer, on a server without hooks and with a signer that never fails.

* `Operation.posted_status`: a body is refused by status 400, or by status 500 if it nests too deep
  or the text of its query uses one name in both notations.
* `Dispatcher.handle_status`: whoever posts nothing is answered by one of a few statuses.
* `Dispatcher.handle_createShortUrl_status`: whoever posts and may is answered by what became of the
  body.
* `Dispatcher.created_of_status`: whoever is answered by status 201 has posted a short URL.
* `Dispatcher.handle_fails_inside_iff`: the requests that are answered by status 500.
-/

namespace AliasGate

/-! ## Bodies -/

/-- Why a body has no value. -/
theorem Http.Request.json_error {r : Http.Request} {fault : Fault} (h : r.json = .error fault) :
    fault = .failure .missingJson ∨ fault = .failure .invalidJson ∨
      ∃ container, fault = .defect (.tooDeep container) := by
  unfold json at h
  split at h
  · cases h
    exact .inl rfl
  · split at h <;> cases h
    · exact .inr (.inl rfl)
    · exact .inr (.inr ⟨_, rfl⟩)

namespace Operation

/-- The body enters more lists and objects, one in another, than it has room for, or the text of its
query has an argument whose whole name a later one has before its brackets. -/
def Unhandled (r : Http.Request) : Prop :=
  (∃ container, r.json = .error (.defect (.tooDeep container))) ∨
    ∃ members text, r.json = .ok (.obj members) ∧
      ShortUrl.field? members "query" = some (.str text) ∧
        ShortUrl.UsesBoth (Query.formWide (ShortUrl.dropMarks text))

variable {r : Http.Request}

theorem unhandled_of_json_ok {j : Json} (h : r.json = .ok j) :
    Unhandled r ↔ ShortUrl.ofJson j = .error .plainAndArray := by
  rw [ShortUrl.ofJson_eq_plainAndArray_iff, Unhandled, h]
  simp only [reduceCtorEq, Except.ok.injEq, exists_false, false_or, exists_and_left]

/-- A body that is refused is refused as the client's fault, unless it is one of those that are not
handled. -/
theorem posted_status {fault : Fault} (h : posted r = .error fault) :
    Unhandled r ∧ fault.told.status = 500 ∨ ¬Unhandled r ∧ fault.told.status = 400 := by
  unfold posted at h
  split at h
  next fault' hjson =>
    cases h
    have hnone : ¬∃ members text, r.json = .ok (.obj members) ∧
        ShortUrl.field? members "query" = some (.str text) ∧
          ShortUrl.UsesBoth (Query.formWide (ShortUrl.dropMarks text)) := by
      rintro ⟨members, text, hok, -⟩
      rw [hjson] at hok
      cases hok
    rcases Http.Request.json_error hjson with rfl | rfl | ⟨container, rfl⟩
    · exact .inr ⟨by simp [Unhandled, hjson], rfl⟩
    · exact .inr ⟨by simp [Unhandled, hjson], rfl⟩
    · exact .inl ⟨.inl ⟨container, hjson⟩, rfl⟩
  next j hjson =>
    rw [unhandled_of_json_ok hjson]
    split at h
    next hread =>
      cases h
      exact .inr ⟨by simp [hread], rfl⟩
    next refusal hissues hread =>
      cases h
      cases refusal with
      | issues found => exact absurd rfl (hissues found)
      | plainAndArray => exact .inl ⟨hread, rfl⟩
    next s hread =>
      split at h <;> cases h
      exact .inr ⟨by simp [hread], rfl⟩

end Operation

/-- Without a failing signer every refusal is the client's fault. -/
theorem Refusal.status {s : Signer} (htotal : s.Total) {store : Store} {t : Target} {e : Event}
    {f : Failure} (h : Refusal s store t e f) : f.status = 400 ∨ f.status = 404 := by
  cases h with
  | absent => exact .inr rfl
  | missing | unknownKey | incorrect => exact .inl rfl
  | unsigned _ hfirst _ _ _ hsign =>
    obtain ⟨t, ht⟩ := htotal _ hfirst.mem _ _
    rw [ht] at hsign
    cases hsign

namespace Dispatcher

/-! ## Signers -/

/-- A server has a signer that never fails if it was offered none that can. -/
theorem signer_total {settings : Settings} {offered : Option (Option Signer)} {s : Signer}
    (hoffered : ∀ s, offered = some (some s) → s.Total)
    (hs : signer settings offered = .ok (some s)) : s.Total := by
  cases offered with
  | some offer =>
    cases hs
    exact hoffered s rfl
  | none =>
    unfold signer at hs
    cases hc : Signer.configured settings.signers settings.argumentKeys with
    | error f =>
      rw [hc] at hs
      cases hs
    | ok s' =>
      rw [hc] at hs
      cases hs
      exact Signer.configured_total hc

section
variable {settings : Settings} {d : Dispatcher} {s : Signer} {r : Http.Request} {order : Order}
  {config : Settings} {keys : AccessKeys} {w : World Store}

/-- Whoever has a reason to pass is let pass. -/
theorem verdict_passes (htotal : s.Total) (hg : order.target.resource ≠ .globalShortUrl)
    {store : Store}
    (h : Authorized s settings.filter store order.target (event order r config keys)) :
    ∃ v, verdict s settings order r config keys = .ok v ∧ v.failure? = none := by
  have hexempt : settings.filter.isExempt
      (event order r config keys).request.transformationNames = true →
      ∃ v, verdict s settings order r config keys = .ok v ∧ v.failure? = none := by
    intro hexempt
    refine ⟨.exempt, ?_, rfl⟩
    unfold verdict Guard.judge
    rw [if_neg (by decide)]
    exact if_pos hexempt
  rcases h with ⟨ht, -⟩ | h | ⟨key, token, privateKey, url, hfirst, hkey, hurl, hsign⟩
  · rw [ht] at hg
    exact absurd rfl hg
  · exact hexempt h
  · cases hstrict : settings.filter.isExempt
        (event order r config keys).request.transformationNames with
    | true => exact hexempt hstrict
    | false =>
      exact ⟨.verified, Guard.judge_verified rfl hstrict hfirst hkey hurl hsign
        fun u => htotal key hfirst.mem u privateKey, rfl⟩

end

/-! ## Statuses -/

/-- The status that an ending is answered with. -/
def statusOf {δ : Type} : Except Fault Unit × Stage δ → Int
  | (.ok (), s) => s.response.status
  | (.error fault, _) => fault.told.status

theorem answerOf_status {δ : Type} (method : Http.Method) (x : Except Fault Unit × Stage δ) :
    (answerOf method x).response.status = statusOf x := by
  rcases x with ⟨fault | _, s⟩
  · rfl
  · by_cases hhead : method = .head <;> simp [answerOf, statusOf, hhead]

theorem resolve_error_status {r : Http.Request} {f : Failure} (h : resolve r = .error f) :
    f.status = 400 ∨ f.status = 405 ∨
      f.status = 418 ∧ r.method.upper = Http.Method.brew.name := by
  unfold resolve at h
  simp only at h
  split at h
  next hbrew =>
    cases h
    exact .inr (.inr ⟨rfl, hbrew⟩)
  · split at h
    · cases h
      exact .inl rfl
    · split at h
      · cases h
        exact .inr (.inl rfl)
      · split at h <;> cases h
        exact .inr (.inl rfl)

section
variable {settings : Settings} {d : Dispatcher} {s : Signer} {r : Http.Request} {order : Order}
  {config : Settings} {keys : AccessKeys} {w : World Store}

/-- Nobody is told before the status page is shown. -/
theorem listeners_before_status {m : Http.Method} {op : Operation} (hd : Wired d s settings [])
    (h : Resource.status.operation? m = some op) :
    d.registry.listeners (Resource.status.eventName m ++ preSuffix) = [] := by
  have hguard : entriesOf (.guard (guardOf s settings))
      (Resource.status.eventName m ++ preSuffix) = [] := by
    show Registry.wanted _ (guardOf s settings).subscriptions _ = []
    rw [guardOf_subscriptions]
    cases m <;> cases h <;> rfl
  unfold Registry.listeners
  rw [hd]
  cases m <;> cases h <;> simp [entriesOfAll, allListeners, hguard] <;> rfl

theorem publish_before_status {δ : Type} (hd : Wired d s settings []) (hr : resolve r = .ok order)
    (hstatus : order.target.resource = .status) (db : Database δ) (stage : Stage δ) :
    (d.publish db ".pre" (event order r config keys)).perform stage = (.ok (), stage) := by
  have hop := resolve_operation hr
  rw [hstatus] at hop
  have hl : d.registry.listeners ((event order r config keys).name ++ preSuffix) = [] := by
    show d.registry.listeners (order.target.resource.eventName order.method ++ preSuffix) = []
    rw [hstatus]
    exact listeners_before_status hd hop
  rw [publish_eq, hl]
  rfl

/-- Whoever asks for a public short URL that is not stored is refused. -/
theorem publish_before_alias (hd : Wired d s settings []) (hr : resolve r = .ok order) {id : Text}
    (ht : order.target = .globalShortUrl id) (healthy : Bool) (config : Settings)
    (keys : AccessKeys) (w : World Store) :
    (∃ stage, (d.publish (.inMemory healthy) ".pre" (event order r config keys)).perform
        ⟨w, Exchange.initial⟩ = (.error (.failure .shortUrlNotFound), stage)) ∨
    ∃ stage, (d.publish (.inMemory healthy) ".pre" (event order r config keys)).perform
        ⟨w, Exchange.initial⟩ = (.ok (), stage) ∧ stage.response.status = 200 := by
  have hg : order.target.resource = .globalShortUrl := by
    rw [ht]
    rfl
  have hgiven : (event order r config keys).request.route.givenId = id := by
    simp only [event, ht]
    rfl
  have hl := listeners_before_nil hd (by rw [hg]; decide) (resolve_operation hr)
  rw [ownListeners, if_pos hg] at hl
  cases hfound : w.database.lookup? id with
  | none =>
    have hstops : RefusedAtOnce ((d.publish (.inMemory healthy) ".pre"
        (event order r config keys)).perform ⟨w, Exchange.initial⟩) w.database .shortUrlNotFound :=
      resolver_stops hl hgiven ((Keyed.get?_eq_none_iff _ _).mp hfound)
    exact .inl ⟨_, Prod.ext hstops.failed rfl⟩
  | some t =>
    exact .inr ⟨_, publish_alias healthy (s := ⟨w, Exchange.initial⟩)
      (e := event order r config keys) hl (by rw [hgiven]; exact hfound), rfl⟩

/-- How the event before an operation ends: refused as the client's fault, or passed with a response
that tells of no fault. -/
theorem publish_before (hd : Wired d s settings []) (htotal : s.Total) (hr : resolve r = .ok order)
    (healthy : Bool) (config : Settings) (keys : AccessKeys) (w : World Store) :
    (∃ f stage, (d.publish (.inMemory healthy) ".pre" (event order r config keys)).perform
        ⟨w, Exchange.initial⟩ = (.error (.failure f), stage) ∧ (f.status = 400 ∨ f.status = 404)) ∨
    ∃ stage, (d.publish (.inMemory healthy) ".pre" (event order r config keys)).perform
        ⟨w, Exchange.initial⟩ = (.ok (), stage) ∧ stage.response.status = 200 := by
  by_cases hstatus : order.target.resource = .status
  · exact .inr ⟨_, publish_before_status hd hr hstatus _ _, rfl⟩
  by_cases hg : order.target.resource = .globalShortUrl
  · obtain ⟨id, ht⟩ := Target.exists_globalShortUrl hg
    rcases publish_before_alias hd hr ht healthy config keys w with ⟨stage, h⟩ | h
    · exact .inl ⟨_, stage, h, .inr rfl⟩
    · exact .inr h
  · have hl := listeners_before_nil hd hstatus (resolve_operation hr)
    rw [ownListeners, if_neg hg] at hl
    rw [publish_guard_alone hl]
    cases hj : (guardOf s settings).judge ((event order r config keys).renamed
        ((event order r config keys).name ++ preSuffix)) Exchange.initial.response with
    | error f => exact absurd hj (Guard.judge_ne_error htotal _ _ f)
    | ok v =>
      cases v with
      | missing | unknownKey | incorrect => exact .inl ⟨_, _, rfl, .inl rfl⟩
      | bypassed | exempt | verified => exact .inr ⟨_, rfl, rfl⟩

/-! ## Requests that post nothing -/

/-- An operation other than creation succeeds, or does not find its short URL, or tells that the
database cannot be reached. -/
theorem perform_status {op : Operation} (h : op ≠ .createShortUrl) (healthy : Bool) (length : Int)
    (r : Http.Request) {stage : Stage Store} (hstage : stage.response.status = 200) :
    statusOf ((op.perform (.inMemory healthy) length r).perform stage) ∈ [200, 404, 503] := by
  have hdone : ∀ {x : Except Fault Unit × Stage Store}, statusOf x = stage.response.status →
      statusOf x ∈ [200, 404, 503] := fun h => by
    rw [h, hstage]
    decide
  have habsent : ∀ {x : Except Fault Unit × Stage Store}, statusOf x = 404 →
      statusOf x ∈ [200, 404, 503] := fun h => by
    rw [h]
    decide
  cases op with
  | createShortUrl => exact absurd rfl h
  | showStatus =>
    cases healthy with
    | true => exact hdone rfl
    | false =>
      rw [show statusOf _ = 503 from rfl]
      decide
  | showUser => exact hdone rfl
  | deleteShortUrls => exact hdone rfl
  | deleteShortUrl =>
    rw [Operation.perform_deleteShortUrl]
    split
    · exact habsent rfl
    · exact hdone rfl
  | showShortUrl =>
    simp only [Operation.perform, Action.perform_bind, Operation.perform_owned]
    cases stage.database.owned? r.route.givenId r.route.givenUser r.route.givenImage with
    | none => exact habsent rfl
    | some t => exact hdone rfl
  | showGlobalShortUrl =>
    rw [Operation.perform_showGlobalShortUrl]
    cases stage.database.lookup? r.route.givenId with
    | none => exact habsent rfl
    | some t => exact hdone rfl

/-- Whoever asks for anything but a new short URL is answered by one of these statuses. -/
theorem handle_status (hd : Wired d s settings []) (htotal : s.Total) (hr : resolve r = .ok order)
    (hop : order.operation ≠ .createShortUrl) (healthy : Bool) (config : Settings)
    (keys : AccessKeys) (w : World Store) :
    (d.handle (.inMemory healthy) config keys r w).response.status ∈ [200, 400, 404, 503] := by
  rw [handle_of_quiet (hd.quiet hooksComeBefore_nil) hr, answerOf_status]
  rcases publish_before hd htotal hr healthy config keys w with
    ⟨f, stage, hstage, hf⟩ | ⟨stage, hstage, hresponse⟩
  · rw [hstage, Action.andThen_error, show statusOf _ = f.status from rfl]
    rcases hf with hf | hf <;> rw [hf] <;> decide
  · rw [hstage, Action.andThen_ok, perform_execute]
    have hresponse : (stage.noting (.operation order.operation)).response.status = 200 := hresponse
    have hstatus := perform_status hop healthy d.idLength (event order r config keys).request
      hresponse
    revert hstatus
    generalize statusOf _ = status
    intro hstatus
    simp only [List.mem_cons, List.not_mem_nil, or_false] at hstatus ⊢
    omega

/-! ## Requests that post -/

/-- The order of a request to create a short URL of an image. -/
abbrev creating (u i : Text) : Order := ⟨.shortUrls u i, .post, .createShortUrl⟩

/-- Whoever posts without a reason to pass is refused as a client at fault. -/
theorem handle_createShortUrl_refused {u i : Text} (hd : Wired d s settings []) (htotal : s.Total)
    (hr : resolve r = .ok (creating u i)) (healthy : Bool) (config : Settings)
    (keys : AccessKeys) (w : World Store)
    (h : ¬Authorized s settings.filter w.database (.shortUrls u i)
      (event (creating u i) r config keys)) :
    (d.handle (.inMemory healthy) config keys r w).response.status = 400 ∨
      (d.handle (.inMemory healthy) config keys r w).response.status = 404 := by
  have hstandBack : HooksStandBack [] := fun _ hh => absurd hh List.not_mem_nil
  obtain ⟨f, hf, hfailed, -, -⟩ :=
    ownListeners_stop hd hstandBack hr (by nofun) healthy config keys w h
  rw [handle_of_fault hr (Prod.ext hfailed rfl)]
  exact hf.status htotal

/-- Whoever posts and may pass is answered by what the operation ends in. -/
theorem handle_createShortUrl_passed {u i : Text} (hd : Wired d s settings []) (htotal : s.Total)
    (hr : resolve r = .ok (creating u i)) (healthy : Bool) (config : Settings)
    (keys : AccessKeys) (w : World Store)
    (h : Authorized s settings.filter w.database (.shortUrls u i)
      (event (creating u i) r config keys)) :
    ∃ stage : Stage Store, stage.database = w.database ∧ stage.ids = w.ids ∧
      stage.response = Http.Response.initial ∧
      d.handle (.inMemory healthy) config keys r w = answerOf .post
        ((Operation.createShortUrl.perform (.inMemory healthy) d.idLength
          (routed r (.shortUrls u i))).perform stage) := by
  have ht : (creating u i).target.resource ≠ .status := nofun
  have hg : (creating u i).target.resource ≠ .globalShortUrl := nofun
  obtain ⟨v, hv, hpass⟩ := verdict_passes htotal hg h
  rw [handle_guarded hd hr ht hg, hv, guardEnding, hpass, Action.andThen_ok, perform_execute]
  exact ⟨_, rfl, rfl, rfl, rfl⟩

/-- Who asks for a new short URL asks it of an image. -/
theorem eq_creating (hr : resolve r = .ok order) (hop : order.operation = .createShortUrl) :
    ∃ u i, order = creating u i := by
  cases writes_of_resolve hr (by rw [hop]; rfl) with
  | create u i => exact ⟨u, i, rfl⟩
  | clear | remove => cases hop

/-- Whoever is answered by status 201 has posted a short URL. -/
theorem created_of_status (hd : Wired d s settings []) (htotal : s.Total) {healthy : Bool}
    (hstatus : (d.handle (.inMemory healthy) config keys r w).response.status = 201) :
    ∃ u i p, resolve r = .ok (creating u i) ∧
      Operation.posted (routed r (.shortUrls u i)) = .ok p ∧
      Created p w (d.handle (.inMemory healthy) config keys r w) := by
  cases hr : resolve r with
  | error f =>
    rw [handle_of_refused hr] at hstatus
    have hf : f.status = 201 := hstatus
    rcases resolve_error_status hr with h | h | ⟨h, -⟩ <;> omega
  | ok order =>
    by_cases hop : order.operation = .createShortUrl
    · obtain ⟨u, i, rfl⟩ := eq_creating hr hop
      by_cases hauthorized : Authorized s settings.filter w.database (.shortUrls u i)
          (event (creating u i) r config keys)
      · obtain ⟨stage, hdatabase, hids, hresponse, hhandle⟩ :=
          handle_createShortUrl_passed hd htotal hr healthy config keys w hauthorized
        rw [hhandle] at hstatus ⊢
        cases hposted : Operation.posted (routed r (.shortUrls u i)) with
        | error fault =>
          rw [Operation.perform_createShortUrl_refused hposted, answerOf_status] at hstatus
          have hfault : fault.told.status = 201 := hstatus
          rcases Operation.posted_status hposted with ⟨-, h⟩ | ⟨-, h⟩ <;> omega
        | ok p =>
          exact ⟨u, i, p, rfl, hposted,
            created_of_perform hposted healthy d.idLength hdatabase hids hresponse⟩
      · rcases handle_createShortUrl_refused hd htotal hr healthy config keys w hauthorized with
          h | h <;> omega
    · have h := handle_status hd htotal hr hop healthy config keys w
      rw [hstatus] at h
      exact absurd h (by decide)

end

/-- Settings under which a request for other transformations than one needs no token. -/
def exempting : Settings := { Settings.standard with blacklist := ["border".toList] }

/-- Posts a short URL without a token. -/
def exempted (query : String) : Http.Request :=
  ⟨"POST".toList, "http".toList, "imbo".toList, "/users/christer/images/abc/shortUrls".toList,
    "t[]=crop".toList, [], {}, Utf8.encode
      ("\x7b\"user\":\"christer\",\"imageIdentifier\":\"abc\",\"query\":" ++ query ++
        "\x7d").toList, 970⟩

end Dispatcher

end AliasGate
