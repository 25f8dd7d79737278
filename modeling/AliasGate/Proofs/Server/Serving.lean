import AliasGate.Proofs.Dispatch.Replies
import AliasGate.Server.Application

/-!
# What a server serves again

A server that keeps short URLs in memory, from its start on.

* `answer_dispatched`, `Answered`: an arrival is answered by the dispatcher, or it is not answered by
  status 201 and leaves everything as it was.
* `after_reachable`: arrivals lead to what runs of requests lead to.
* `after_keeps`: a short URL stays until it is deleted, whatever arrives.
* `answer_created`: who is answered by status 201 is told the id of what was posted.
* `serves_created`: how a short URL that was created is served from then on.
-/

namespace AliasGate.Server

open Dispatcher (Reachable creating resolve routed)
open Operation (idModel)
open WideText (ofText)

/-! ## What is sent -/

namespace Served

theorem shareWith_status (s : Served) (origin : Option Text) :
    (s.shareWith origin).status = s.status := by
  unfold shareWith
  split <;> rfl

theorem shareWith_body (s : Served) (origin : Option Text) :
    (s.shareWith origin).body = s.body := by
  unfold shareWith
  split <;> rfl

/-- A value is sent if it has a text; if not, nothing of the answer is. -/
theorem json_cases (status : Int) (headers : List (Text × Text)) (model : Json) :
    (∃ body, Json.write .answer model = .ok body ∧
      (json status headers model).status = status ∧ (json status headers model).body = body) ∨
    ∃ reason, Json.write .answer model = .error reason ∧
      json status headers model = crashed (.unwritable reason) := by
  unfold json
  cases Json.write .answer model with
  | ok body => exact .inl ⟨body, rfl, rfl, rfl⟩
  | error reason => exact .inr ⟨reason, rfl, rfl⟩

theorem crashed_status_ne (c : Crash) : (crashed c).status ≠ 201 := by
  show (500 : Int) ≠ 201
  decide

/-- Whatever is not answered by a crash has the text of its value as its body. -/
theorem json_body {status : Int} {headers : List (Text × Text)} {model : Json}
    (h : (json status headers model).status ≠ 500) :
    Json.write .answer model = .ok (json status headers model).body := by
  rcases json_cases status headers model with ⟨body, hwritten, -, hbody⟩ | ⟨reason, -, hcrashed⟩
  · rw [hwritten, hbody]
  · rw [hcrashed] at h
    exact absurd rfl h

theorem json_status_ne {status : Int} (h : status ≠ 201) (headers : List (Text × Text))
    (model : Json) : (json status headers model).status ≠ 201 := by
  rcases json_cases status headers model with ⟨_, -, hstatus, -⟩ | ⟨reason, -, hcrashed⟩
  · rwa [hstatus]
  · rw [hcrashed]
    exact crashed_status_ne _

theorem ofResponse_status_ne {r : Http.Response} (h : r.status ≠ 201) :
    (ofResponse r).status ≠ 201 := by
  unfold ofResponse
  split
  · exact h
  · exact json_status_ne h _ _

theorem ifUrl_status_ne {s : Served} (a : Arrival) (h : s.status ≠ 201) :
    (ifUrl a s).status ≠ 201 := by
  unfold ifUrl
  split
  · exact h
  · exact crashed_status_ne _

end Served

/-! ## Answers -/

/-- The state of a server with its records in memory. -/
def State.ofWorld (w : World Store) : State := ⟨.memory w.database, w.ids, w.metrics⟩

/-- The records in memory. -/
def State.records (s : State) : Store :=
  match s.holdings with
  | .memory store => store
  | .sql _ => []

/-- The dispatcher's answer to a request. -/
def Running.handle (running : Running) (r : Http.Request) (w : World Store) :
    Dispatcher.Answer Store :=
  running.dispatcher.handle (.inMemory true) running.settings running.settings.accessKeys
    r w

section
variable {running : Running} {a : Arrival} {r : Http.Request} {w w₀ : World Store}

/-- What goes to the dispatcher is answered by it. -/
theorem answer_dispatched (hentrance : Entrance.of a.method a.path = .dispatcher)
    (hr : a.toRequest running.settings.trustedProxies = .ok r) (w : World Store) :
    answer (.ok running) a (.ofWorld w) =
      ((Served.ofResponse (running.handle r w).response).shareWith (a.header? "origin"),
        .ofWorld (running.handle r w).world) := by
  have hserve : serve running a false (.ofWorld w) =
      (Served.ofResponse (running.handle r w).response, .ofWorld (running.handle r w).world) := by
    unfold serve
    rw [hr]
    rfl
  unfold answer receive
  rw [hentrance]
  simp only [serveIfStarted, hserve]

/-- An answer with the state after it: nothing happened and nothing was created, or the dispatcher
answered. -/
inductive Answered (running : Running) (a : Arrival) (w : World Store) : Served × State → Prop
  | aside {served : Served} (hstatus : served.status ≠ 201) :
    Answered running a w (served, .ofWorld w)
  | dispatched {r : Http.Request} (hr : a.toRequest running.settings.trustedProxies = .ok r) :
    Answered running a w
      ((Served.ofResponse (running.handle r w).response).shareWith (a.header? "origin"),
        .ofWorld (running.handle r w).world)

/-- What does not go to the dispatcher changes nothing. -/
theorem receive_aside (h : Entrance.of a.method a.path ≠ .dispatcher) (w : World Store) :
    ∃ served, receive (.ok running) a (.ofWorld w) = (served, .ofWorld w) ∧
      served.status ≠ 201 := by
  have hok : (200 : Int) ≠ 201 := by decide
  have hmethod : (405 : Int) ≠ 201 := by decide
  have hslash : (307 : Int) ≠ 201 := by decide
  have habsent : (404 : Int) ≠ 201 := by decide
  unfold receive
  cases hentrance : Entrance.of a.method a.path with
  | dispatcher => exact absurd hentrance h
  | health =>
    simp only [serveIfStarted, serve]
    cases a.toRequest running.settings.trustedProxies with
    | ok r => exact ⟨_, rfl, Served.json_status_ne hok [] _⟩
    | error defect => exact ⟨_, rfl, Served.crashed_status_ne _⟩
  | wrongMethod allowed => exact ⟨_, rfl, Served.json_status_ne hmethod _ _⟩
  | elsewhere => exact ⟨_, rfl, Served.ifUrl_status_ne a hslash⟩
  | nowhere => exact ⟨_, rfl, Served.ifUrl_status_ne a (Served.json_status_ne habsent [] _)⟩

/-- Every arrival is answered in one of these ways. -/
theorem answered (running : Running) (a : Arrival) (w : World Store) :
    Answered running a w (answer (.ok running) a (.ofWorld w)) := by
  have haside : ∀ served, served.status ≠ 201 →
      receive (.ok running) a (.ofWorld w) = (served, .ofWorld w) →
      Answered running a w (answer (.ok running) a (.ofWorld w)) := by
    intro served hstatus hreceive
    unfold answer
    rw [hreceive]
    exact .aside (by rwa [Served.shareWith_status])
  by_cases hentrance : Entrance.of a.method a.path = .dispatcher
  · cases hr : a.toRequest running.settings.trustedProxies with
    | ok r =>
      rw [answer_dispatched hentrance hr]
      exact .dispatched hr
    | error defect =>
      refine haside (.crashed (.fault (.defect defect))) (Served.crashed_status_ne _) ?_
      simp only [receive, hentrance, serveIfStarted, serve, hr]
  · obtain ⟨served, hreceive, hstatus⟩ := receive_aside hentrance w
    exact haside served hstatus hreceive

/-! ## Runs -/

/-- The state after arrivals, one after another. -/
def after (running : Running) : List Arrival → State → State
  | [], s => s
  | a :: as, s => after running as (answer (.ok running) a s).2

/-- An arrival leads to a state that a request leads to. -/
theorem answer_reachable (hw : Reachable running.dispatcher (.inMemory true) w₀ w) (a : Arrival) :
    ∃ w', (answer (.ok running) a (.ofWorld w)).2 = .ofWorld w' ∧
      Reachable running.dispatcher (.inMemory true) w₀ w' := by
  have h := answered running a w
  generalize answer (.ok running) a (.ofWorld w) = x at h
  cases h with
  | aside => exact ⟨w, rfl, hw⟩
  | dispatched hr => exact ⟨_, rfl, hw.next _ _ _⟩

/-- Arrivals lead to states that runs of requests lead to. -/
theorem after_reachable (hw : Reachable running.dispatcher (.inMemory true) w₀ w)
    (as : List Arrival) : ∃ w', after running as (.ofWorld w) = .ofWorld w' ∧
      Reachable running.dispatcher (.inMemory true) w₀ w' := by
  induction as generalizing w with
  | nil => exact ⟨w, rfl, hw⟩
  | cons a as ih =>
    obtain ⟨w', hanswer, hw'⟩ := answer_reachable hw a
    rw [after, hanswer]
    exact ih hw'

/-- Whatever arrives after the start, the state is one that a run of requests leads to. -/
theorem after_initial (hbackend : running.settings.backend = .memory) (ids : IdSource)
    (as : List Arrival) : ∃ w, after running as (.initial running.settings ids) = .ofWorld w ∧
      Reachable running.dispatcher (.inMemory true) ⟨[], ids, .zero⟩ w := by
  have hinitial : State.initial running.settings ids = .ofWorld ⟨[], ids, .zero⟩ := by
    simp only [State.initial, hbackend, State.ofWorld]
  rw [hinitial]
  exact after_reachable .start as

/-- An arrival asks to delete the short URL under the id, alone or with its image's others. -/
def Arrival.Deletes (a : Arrival) (settings : Settings) (id : Text) (t : ShortUrl) : Prop :=
  ∃ r, a.toRequest settings.trustedProxies = .ok r ∧ Dispatcher.Deletes r id t

/-- None of the arrivals deletes the short URL: those that ask to do so change nothing that is
stored. -/
def Untouched (running : Running) (id : Text) (t : ShortUrl) : List Arrival → State → Prop
  | [], _ => True
  | a :: as, s =>
    (a.Deletes running.settings id t → (answer (.ok running) a s).2.holdings = s.holdings) ∧
      Untouched running id t as (answer (.ok running) a s).2

/-- A stored short URL stays stored while none of the arrivals deletes it. -/
theorem after_keeps (hbare : running.dispatcher.Hookless) (hempty : w₀.database = [])
    (hids : w₀.ids.IsRegular running.dispatcher.idLength)
    (hw : Reachable running.dispatcher (.inMemory true) w₀ w) {id : Text} {t : ShortUrl}
    (hfound : w.database.lookup? id = some t) {as : List Arrival}
    (h : Untouched running id t as (.ofWorld w)) :
    ∃ w', after running as (.ofWorld w) = .ofWorld w' ∧ w'.database.lookup? id = some t := by
  induction as generalizing w with
  | nil => exact ⟨w, rfl, hfound⟩
  | cons a as ih =>
    obtain ⟨hspared, hrest⟩ := h
    have hanswered := answered running a w
    rw [after]
    generalize answer (.ok running) a (.ofWorld w) = x at hanswered hspared hrest
    cases hanswered with
    | aside => exact ih hw hfound hrest
    | @dispatched r hr =>
      obtain ⟨hsound, -⟩ := Dispatcher.reachable_sound hbare hempty hids hw
      obtain ⟨hchange, -⟩ := Dispatcher.handle_change hbare true running.settings
        running.settings.accessKeys r w
      have hkept : Dispatcher.Deletes r id t → (running.handle r w).world.database = w.database :=
        fun hdeletes => Holdings.memory.inj (hspared ⟨r, hr, hdeletes⟩)
      exact ih (hw.next _ _ _) (hchange.lookup?_eq hsound.unique hfound hkept) hrest

/-! ## Creating -/

/-- Whoever is answered by status 201 has posted a short URL, and is told the id under which one that
agrees with it is stored. -/
theorem answer_created {signer : Signer} (htotal : signer.Total)
    (hd : Dispatcher.Wired running.dispatcher signer running.settings [])
    (hunique : (Keyed.keys w.database).Nodup) {served : Served} {s : State}
    (hanswer : answer (.ok running) a (.ofWorld w) = (served, s)) (hstatus : served.status = 201) :
    ∃ r u i p id t, a.toRequest running.settings.trustedProxies = .ok r ∧
      resolve r = .ok (creating u i) ∧ Operation.posted (routed r (.shortUrls u i)) = .ok p ∧
      s = .ofWorld (running.handle r w).world ∧ Json.write .answer (idModel id) = .ok served.body ∧
      s.records.lookup? id = some t ∧ t.agrees p = true := by
  have hanswered := answered running a w
  rw [hanswer] at hanswered
  cases hanswered with
  | aside hother => exact absurd hstatus hother
  | @dispatched r hr =>
    rw [Served.shareWith_status] at hstatus
    have hcreated : (running.handle r w).response.status = 201 :=
      Decidable.not_not.mp fun h => Served.ofResponse_status_ne h hstatus
    obtain ⟨u, i, p, hresolve, hposted, hends⟩ := Dispatcher.created_of_status hd htotal hcreated
    obtain ⟨id, t, hresponse, hlookup, hagrees⟩ :=
      hends.stored hunique (Operation.receivable_of_posted hposted).hasNames hcreated
    have hserved : Served.ofResponse (running.handle r w).response =
        Served.json 201 [] (idModel id) := congrArg Served.ofResponse hresponse
    rw [hserved] at hstatus
    refine ⟨r, u, i, p, id, t, hr, hresolve, hposted, rfl, ?_, hlookup, hagrees⟩
    rw [Served.shareWith_body, hserved]
    exact Served.json_body (by rw [hstatus]; decide)

/-! ## Serving again -/

/-- A request to get the public short URL of an id, by a URL that can be told. -/
structure Arrival.Gets (g : Arrival) (id : Text) : Prop where
  method : g.method = Http.Method.get.name
  path : g.path = (Target.globalShortUrl id).path
  transmitted : Percent.decode g.transmittedPath = (Target.globalShortUrl id).path
  url : ∃ head, g.urlHead = .ok head

/-- The path of a public short URL leads to the dispatcher. -/
theorem entrance_globalShortUrl {id : Text} (hid : Target.isId id = true) :
    Entrance.of Http.Method.get.name (Target.globalShortUrl id).path = .dispatcher := by
  have hpath : (Target.globalShortUrl id).path = '/' :: 's' :: '/' :: id := by
    simp [Target.path, Target.segments]
  have hnewline : '\n' ∉ 's' :: '/' :: id := by
    simpa using Target.not_mem_of_isId hid (by decide)
  have hbefore : ∀ s : Text, '\n' ∉ s → Text.before? ['\n'] s = none := by
    intro s hs
    refine Option.eq_none_iff_forall_ne_some.mpr fun t ht => ?_
    rw [Text.before?_eq_some_iff] at ht
    exact hs (ht ▸ List.mem_append_right t List.mem_cons_self)
  have hall : ('s' :: '/' :: id).all (· != '\n') = true := by
    rw [List.all_eq_true]
    intro c hc
    exact bne_iff_ne.mpr fun heq => hnewline (heq ▸ hc)
  have hdispatched : Entrance.isPath (Target.globalShortUrl id).path = true := by
    rw [hpath]
    simp only [Entrance.isPath, hbefore _ hnewline, Option.getD_none, hall]
  have hhealth : Entrance.isHealthPath (Target.globalShortUrl id).path = false := by
    have hpath' : '\n' ∉ '/' :: 's' :: '/' :: id := by simpa using hnewline
    rw [hpath, Entrance.isHealthPath, Text.orBeforeNewline, hbefore _ hpath']
    rfl
  have hmethod : Http.Method.ofName? Http.Method.get.name = some .get := by decide
  simp [Entrance.of, hdispatched, hhealth, hmethod]

/-- Whoever gets a stored short URL is answered by its value, or by a crash if it has no text. -/
theorem answer_stored {signer : Signer}
    (hd : Dispatcher.Wired running.dispatcher signer running.settings []) {id : Text} {t : ShortUrl}
    (hid : Target.isId id = true) (hfound : w.database.lookup? id = some t) {g : Arrival}
    (hg : g.Gets id) :
    (answer (.ok running) g (.ofWorld w)).1 =
      (Served.json 200 [(Http.Response.shortUrlHeader.lower, id)] t.toJson).shareWith
        (g.header? "origin") := by
  obtain ⟨head, hhead⟩ := hg.url
  obtain ⟨r, hr, hmethod, hpath⟩ : ∃ r, g.toRequest running.settings.trustedProxies = .ok r ∧
      r.method = g.method.upper ∧ r.path = g.transmittedPath := by
    unfold Arrival.toRequest
    rw [hhead]
    exact ⟨_, rfl, rfl, rfl⟩
  have hentrance : Entrance.of g.method g.path = .dispatcher := by
    rw [hg.method, hg.path]
    exact entrance_globalShortUrl hid
  have hresolve : resolve r = .ok ⟨.globalShortUrl id, .get, .showGlobalShortUrl⟩ := by
    refine Dispatcher.resolve_globalShortUrl hid ?_ ?_
    · rw [hmethod, hg.method]
      decide
    · rw [hpath, hg.transmitted]
  have hresponse : (running.handle r w).response = _ := Dispatcher.handle_alias hd hresolve hfound
  rw [answer_dispatched hentrance hr, hresponse]
  rfl

/-- The answer is well, and whoever reads it, with room for the value of the short URL, reads that
value. -/
def Served.Shows (served : Served) (t : ShortUrl) : Prop :=
  served.status = 200 ∧ ∀ room, t.toJson.height ≤ room →
    Json.read (.received room) (ofText served.body) = .ok t.toJson

/-- A short URL is shown if it is servable. If not, the answer is that of a crash. -/
theorem Served.json_shows {t : ShortUrl} (ht : t.Receivable) (headers : List (Text × Text))
    (origin : Option Text) :
    (t.IsServable → ((json 200 headers t.toJson).shareWith origin).Shows t) ∧
    (¬t.IsServable → ∃ reason,
      (json 200 headers t.toJson).shareWith origin = .crashed (.unwritable reason)) := by
  rcases json_cases 200 headers t.toJson with
    ⟨body, hwritten, hstatus, hbody⟩ | ⟨reason, hwritten, hcrashed⟩
  · refine ⟨fun _ => ⟨?_, fun room hroom => ?_⟩,
      fun h => absurd (ShortUrl.exists_answer_iff.mp ⟨body, hwritten⟩) h⟩
    · rw [shareWith_status, hstatus]
    · rw [shareWith_body, hbody, ShortUrl.read_answer ht hwritten hroom]
  · refine ⟨fun h => ?_, fun _ => ⟨reason, ?_⟩⟩
    · obtain ⟨body, hbody⟩ := ShortUrl.exists_answer_iff.mpr h
      rw [hwritten] at hbody
      cases hbody
    · rw [hcrashed]
      rfl

end

/-- The parts of a server that was started. -/
theorem start_eq_ok {settings : Settings} {running : Running} (h : start settings = .ok running) :
    Dispatcher.build settings none [] = .ok running.dispatcher ∧ running.settings = settings := by
  unfold start at h
  split at h <;> cases h
  next hd => exact ⟨hd, rfl⟩

/-- **What was created is served, if it has a text.** In memory, after any arrivals, one that is
answered by status 201 has its short URL, or one that agrees with it, stored under the id of the
answer. While that is `Untouched`, whoever `Gets` it is shown it if it `IsServable`, and else meets
a crash. -/
theorem serves_created {settings : Settings} {running : Running}
    (hstart : start settings = .ok running) (hbackend : settings.backend = .memory)
    {ids : IdSource} (hids : ids.IsRegular settings.idLength) (before : List Arrival) (a : Arrival)
    {served : Served} {s : State}
    (hanswer : answer (.ok running) a (after running before (.initial settings ids)) = (served, s))
    (hstatus : served.status = 201) :
    ∃ r u i p id t, a.toRequest settings.trustedProxies = .ok r ∧
      resolve r = .ok (creating u i) ∧ Operation.posted (routed r (.shortUrls u i)) = .ok p ∧
      Json.write .answer (idModel id) = .ok served.body ∧ s.records.lookup? id = some t ∧
      t.agrees p = true ∧
      ∀ later, Untouched running id t later s → ∀ g : Arrival, g.Gets id →
        (t.IsServable → (answer (.ok running) g (after running later s)).1.Shows t) ∧
        (¬t.IsServable → ∃ reason,
          (answer (.ok running) g (after running later s)).1 = .crashed (.unwritable reason)) := by
  obtain ⟨hd, rfl⟩ := start_eq_ok hstart
  obtain ⟨signer, hsigner, hwired⟩ := Dispatcher.build_ok hd
  have hbare := hwired.hookless
  have htotal := Dispatcher.signer_total (by nofun) hsigner
  rw [← Dispatcher.build_idLength hd] at hids
  obtain ⟨w, hw, hreach⟩ := after_initial hbackend ids before
  rw [hw] at hanswer
  obtain ⟨hsound, -⟩ := Dispatcher.reachable_sound hbare rfl hids hreach
  obtain ⟨r, u, i, p, id, t, hr, hresolve, hposted, rfl, hbody, hlookup, hagrees⟩ :=
    answer_created htotal hwired hsound.unique hanswer hstatus
  refine ⟨r, u, i, p, id, t, hr, hresolve, hposted, hbody, hlookup, hagrees, ?_⟩
  intro later huntouched g hg
  -- the store after the answer is sound too, so that the id has a path and the value can be read
  have hreach' : Reachable running.dispatcher (.inMemory true) ⟨[], ids, .zero⟩
      (running.handle r w).world := hreach.next _ _ r
  obtain ⟨hsound', -⟩ := Dispatcher.reachable_sound hbare rfl hids hreach'
  have hstored := Keyed.mem_of_get? hlookup
  obtain ⟨w', hlater, hfound⟩ := after_keeps hbare rfl hids hreach' hlookup huntouched
  rw [hlater, answer_stored hwired (hsound'.ids _ hstored).2 hfound hg]
  exact Served.json_shows (hsound'.receivable _ hstored) _ _

/-- Settings under which a request for other transformations than one needs no token, on a server
that keeps short URLs in memory. -/
def volatile : Settings := { Dispatcher.exempting with backend := .memory }

/-- The state of that server at its start, with one id in the script. -/
def untried : State := .initial volatile Dispatcher.vacant.ids

/-- A request from the network, without headers. -/
def arriving (method path query body : String) : Arrival where
  method := method.toList
  scheme := "http".toList
  rawPath := none
  path := path.toList
  query := Utf8.encode query.toList
  headers := []
  peer := none
  server := "imbo".toList
  socket := 80
  body := Utf8.encode body.toList
  room := 970

/-- Posts a short URL with one query argument. -/
def Arrival.posting (value : String) : Arrival :=
  arriving "POST" "/users/christer/images/abc/shortUrls" "t[]=crop"
    ("\x7b\"user\":\"christer\",\"imageIdentifier\":\"abc\",\"query\":\x7b\"a\":" ++ value ++
      "\x7d\x7d")

/-- Gets the short URL under the id in the script. -/
def Arrival.getting : Arrival := arriving "GET" "/s/abcdefg" "" ""

theorem Arrival.getting_gets : getting.Gets "abcdefg".toList where
  method := rfl
  path := by decide
  transmitted := by decide +kernel
  url := by
    obtain ⟨head, hhead, -⟩ : ∃ head, getting.urlHead = .ok head ∧ true = true :=
      Except.exists_ok_of_any (by decide +kernel)
    exact ⟨head, hhead⟩

/-- A posted text is served. -/
theorem serves_created_text :
    ∃ running served s t, start volatile = .ok running ∧ volatile.backend = .memory ∧
      answer (.ok running) (.posting "\"b\"") untried = (served, s) ∧ served.status = 201 ∧
      s.records.lookup? "abcdefg".toList = some t ∧
      (answer (.ok running) .getting s).1.Shows t := by
  obtain ⟨running, hstart, htest⟩ : ∃ running, start volatile = .ok running ∧
      (let x := answer (.ok running) (.posting "\"b\"") untried
      decide (x.1.status = 201) && decide (Keyed.keys x.2.records = ["abcdefg".toList]) &&
        (x.2.records.lookup? "abcdefg".toList).all fun t => decide t.IsServable) = true :=
    Except.exists_ok_of_any (by decide +kernel)
  rcases hanswer : answer (.ok running) (.posting "\"b\"") untried with ⟨served, s⟩
  simp only [hanswer, Bool.and_eq_true, decide_eq_true_eq] at htest
  obtain ⟨⟨hstatus, hkeys⟩, hservable⟩ := htest
  obtain ⟨r, u, i, p, id, t, -, -, -, -, hlookup, -, hserves⟩ :=
    serves_created hstart rfl Dispatcher.vacant_isRegular [] (.posting "\"b\"") hanswer hstatus
  obtain rfl : id = "abcdefg".toList := by
    have hid : id ∈ Keyed.keys s.records := List.mem_map_of_mem (Keyed.mem_of_get? hlookup)
    exact List.mem_singleton.mp (hkeys ▸ hid)
  rw [hlookup] at hservable
  exact ⟨running, served, s, t, hstart, rfl, hanswer, hstatus, hlookup,
    (hserves [] trivial .getting Arrival.getting_gets).1 (of_decide_eq_true hservable)⟩

/-- What is not a number is stored too, but whoever gets it is answered by a crash. -/
theorem serves_created_not :
    ∃ running served s, start volatile = .ok running ∧
      answer (.ok running) (.posting "NaN") untried = (served, s) ∧ served.status = 201 ∧
      served.body = "\x7b\"id\":\"abcdefg\"\x7d".toList ∧
      (answer (.ok running) .getting s).1.status = 500 ∧
      (answer (.ok running) .getting s).1.crash = some (.unwritable .nonFinite) := by
  obtain ⟨running, hstart, htest⟩ : ∃ running, start volatile = .ok running ∧
      (let x := answer (.ok running) (.posting "NaN") untried
      let y := answer (.ok running) .getting x.2
      decide (x.1.status = 201) && decide (x.1.body = "\x7b\"id\":\"abcdefg\"\x7d".toList) &&
        decide (y.1.status = 500) && decide (y.1.crash = some (.unwritable .nonFinite))) = true :=
    Except.exists_ok_of_any (by decide +kernel)
  rcases hanswer : answer (.ok running) (.posting "NaN") untried with ⟨served, s⟩
  simp only [hanswer, Bool.and_eq_true, decide_eq_true_eq] at htest
  obtain ⟨⟨⟨hstatus, hbody⟩, hcrashed⟩, hreason⟩ := htest
  exact ⟨running, served, s, hstart, hanswer, hstatus, hbody, hcrashed, hreason⟩

end AliasGate.Server
