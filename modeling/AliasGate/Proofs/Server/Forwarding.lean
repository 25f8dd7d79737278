import AliasGate.Proofs.Dispatch.Resemblance
import AliasGate.Proofs.Server.Serving

/-!
# Headers that only proxies may set

Behind a proxy a server learns by two headers which URL the client used. A peer that is no trusted
proxy can send them too, but to no effect.

* `ordinary`: the headers that are not of that kind. Both ways of finding a header find these in them
  (`lookup_ordinary`, `Arrival.get?_headersByName`).
* `Arrival.toRequest_withHeaders`: what an untrusted peer says about its URL is not in the request.
* `forwarding_has_no_effect`: nor does it change how the dispatcher answers.
* `answer_withHeaders`: the same for the whole server, from arrival to what is sent.
-/

namespace AliasGate.Server

/-! ## Headers -/

/-- The headers that tell by which URL a proxy was reached, in lower case. -/
def forwardingHeaders : List Text := ["x-forwarded-proto".toList, "x-forwarded-host".toList]

/-- The headers that tell nothing of this kind. -/
def ordinary (headers : List (Text × Text)) : List (Text × Text) :=
  headers.filter fun h => h.1.lower ∉ forwardingHeaders

/-- Any other header is found among the ordinary ones. -/
theorem lookup_ordinary {name : Text} (h : name.lower ∉ forwardingHeaders)
    (headers : List (Text × Text)) : (ordinary headers).lookup name = headers.lookup name := by
  induction headers with
  | nil => rfl
  | cons header headers ih =>
    obtain ⟨key, value⟩ := header
    by_cases hkey : name = key
    · subst hkey
      simp [ordinary, h]
    · have hne : (name == key) = false := beq_false_of_ne hkey
      rw [List.lookup_cons, hne, ← ih]
      by_cases hforwarding : key.lower ∈ forwardingHeaders <;>
        simp [ordinary, List.lookup_cons, hforwarding, hne]

namespace Arrival

variable {a : Arrival} {headers : List (Text × Text)} {trusted : List Text}

/-- The same arrival with other headers. -/
def withHeaders (a : Arrival) (headers : List (Text × Text)) : Arrival := { a with headers := headers }

/-- The peer is no trusted proxy. -/
def Untrusted (a : Arrival) (trusted : List Text) : Prop := ∀ peer ∈ a.peer, peer ∉ trusted

theorem header?_withHeaders (hsame : ordinary headers = ordinary a.headers) (name : String)
    (h : Text.lower name.toList ∉ forwardingHeaders) :
    (a.withHeaders headers).header? name = a.header? name := by
  show headers.lookup name.toList = a.headers.lookup name.toList
  rw [← lookup_ordinary h headers, hsame, lookup_ordinary h]

/-- Under a name in lower case, too, any other header is found among the ordinary ones. -/
theorem get?_headersByName {name : Text} (h : name ∉ forwardingHeaders) :
    a.headersByName.get? name =
      (Keyed.ofPairs ((ordinary a.headers).map fun h => (h.1.lower, h.2))).get? name := by
  have hfilter : (ordinary a.headers).filter (fun e => decide (e.1.lower = name)) =
      a.headers.filter fun e => decide (e.1.lower = name) := by
    unfold ordinary
    rw [List.filter_filter]
    refine List.filter_congr fun e _ => ?_
    by_cases hname : e.1.lower = name <;> simp [hname, h]
  unfold headersByName
  rw [Keyed.get?_ofPairs, Keyed.get?_ofPairs, List.filter_map, List.filter_map]
  exact congrArg (fun l => ((List.map _ l).getLast?).map _) hfilter.symm

theorem get?_headersByName_withHeaders (hsame : ordinary headers = ordinary a.headers) {name : Text}
    (h : name ∉ forwardingHeaders) :
    (a.withHeaders headers).headersByName.get? name = a.headersByName.get? name := by
  rw [get?_headersByName h, get?_headersByName h]
  show (Keyed.ofPairs ((ordinary headers).map _)).get? name = _
  rw [hsame]

/-! ## Requests -/

theorem forwarded_untrusted (h : a.Untrusted trusted) (name : String) (value : Text) :
    a.forwarded trusted name value = value := by
  have hany : a.peer.any (· ∈ trusted) = false := by
    cases hpeer : a.peer with
    | none => rfl
    | some peer => simpa using h peer hpeer
  simp [forwarded, hany]

theorem urlHead_withHeaders (hsame : ordinary headers = ordinary a.headers) :
    (a.withHeaders headers).urlHead = a.urlHead := by
  have hhost := header?_withHeaders hsame "host" (by decide)
  have hauthority : (a.withHeaders headers).authority? = a.authority? := by
    unfold authority?
    rw [hhost]
    rfl
  unfold urlHead
  rw [hauthority]
  rfl

/-- Of an untrusted peer, such headers reach the request in no other way than among its headers. -/
theorem toRequest_withHeaders (hpeer : a.Untrusted trusted)
    (hsame : ordinary headers = ordinary a.headers) :
    (a.withHeaders headers).toRequest trusted = (a.toRequest trusted).map fun r =>
      { r with headers := (a.withHeaders headers).headersByName } := by
  have hpeer' : (a.withHeaders headers).Untrusted trusted := hpeer
  have hhost := header?_withHeaders hsame "host" (by decide)
  unfold toRequest
  rw [urlHead_withHeaders hsame]
  cases a.urlHead with
  | error defect => rfl
  | ok head =>
    simp only [Except.map, forwarded_untrusted hpeer, forwarded_untrusted hpeer', hhost]
    rfl

/-- So what becomes of it is a request that resembles the other one. -/
theorem resembles_withHeaders (hpeer : a.Untrusted trusted)
    (hsame : ordinary headers = ordinary a.headers) {r r' : Http.Request}
    (hr : a.toRequest trusted = .ok r) (hr' : (a.withHeaders headers).toRequest trusted = .ok r') :
    r'.method = r.method ∧ r'.Resembles r := by
  have hheaders : r.headers = a.headersByName := by
    unfold toRequest at hr
    cases hhead : a.urlHead <;> rw [hhead] at hr <;> cases hr
    rfl
  rw [toRequest_withHeaders hpeer hsame, hr] at hr'
  cases hr'
  refine ⟨rfl, rfl, rfl, rfl, rfl, ?_, rfl, rfl, rfl⟩
  show (a.withHeaders headers).headersByName.get? _ = r.headers.get? _
  rw [get?_headersByName_withHeaders hsame (by decide), hheaders]

end Arrival

/-! ## Answers -/

/-- **Forwarding headers of untrusted peers have no effect.** Arrivals that differ in
`forwardingHeaders` only become requests that differ in their headers only, and a dispatcher without
hooks answers these alike in every world. -/
theorem forwarding_has_no_effect {settings : Settings} {offered : Option (Option Signer)}
    {d : Dispatcher} (hd : Dispatcher.build settings offered [] = .ok d) {a : Arrival}
    (hpeer : ∀ peer ∈ a.peer, peer ∉ settings.trustedProxies) {headers : List (Text × Text)}
    (hsame : ordinary headers = ordinary a.headers) :
    (a.withHeaders headers).toRequest settings.trustedProxies =
      (a.toRequest settings.trustedProxies).map (fun r =>
        { r with headers := (a.withHeaders headers).headersByName }) ∧
    ∀ r r', a.toRequest settings.trustedProxies = .ok r →
      (a.withHeaders headers).toRequest settings.trustedProxies = .ok r' →
      ∀ {δ : Type} (db : Database δ) (config : Settings) (keys : AccessKeys) (w : World δ),
        (d.handle db config keys r' w).response = (d.handle db config keys r w).response ∧
        (d.handle db config keys r' w).world = (d.handle db config keys r w).world := by
  obtain ⟨signer, -, hwired⟩ := Dispatcher.build_ok hd
  refine ⟨Arrival.toRequest_withHeaders hpeer hsame, fun r r' hr hr' δ db config keys w => ?_⟩
  obtain ⟨hmethod, hresembles⟩ := Arrival.resembles_withHeaders hpeer hsame hr hr'
  exact Dispatcher.handle_of_resembling hwired hmethod hresembles db config keys w

/-- A server behind one proxy. -/
def proxied : Settings := { volatile with trustedProxies := ["10.0.0.1".toList] }

/-- A request from elsewhere, without forwarding headers. -/
def Arrival.direct : Arrival :=
  { arriving "GET" "/users/christer" "" "" with peer := some "10.0.0.2".toList }

/-- The same request as the proxy would send it. -/
def Arrival.viaProxy : Arrival := { direct with peer := some "10.0.0.1".toList }

/-- The same headers with one more. -/
def Arrival.disguise : List (Text × Text) :=
  direct.headers ++ [("x-forwarded-host".toList, "elsewhere".toList)]

/-- A client that disguises itself so is seen under the host that it reached. From the proxy the
header counts. -/
theorem forwarding_has_no_effect_direct :
    ∃ d, Dispatcher.build proxied none [] = .ok d ∧
      (∀ peer ∈ Arrival.direct.peer, peer ∉ proxied.trustedProxies) ∧
      ordinary Arrival.disguise = ordinary Arrival.direct.headers ∧
      (∃ r, (Arrival.direct.withHeaders Arrival.disguise).toRequest proxied.trustedProxies = .ok r ∧
        r.host = "imbo".toList) ∧
      ∃ r, (Arrival.viaProxy.withHeaders Arrival.disguise).toRequest proxied.trustedProxies = .ok r ∧
        r.host = "elsewhere".toList := by
  obtain ⟨d, hd, -⟩ : ∃ d, Dispatcher.build proxied none [] = .ok d ∧ true = true :=
    Except.exists_ok_of_any (by decide +kernel)
  have hpeer : ∀ peer ∈ Arrival.direct.peer, peer ∉ proxied.trustedProxies := by decide
  have hsame : ordinary Arrival.disguise = ordinary Arrival.direct.headers := by decide +kernel
  obtain ⟨hrequest, -⟩ := forwarding_has_no_effect hd hpeer hsame
  obtain ⟨r, hr, hhost⟩ : ∃ r, Arrival.direct.toRequest proxied.trustedProxies = .ok r ∧
      decide (r.host = "imbo".toList) = true :=
    Except.exists_ok_of_any (by decide +kernel)
  obtain ⟨r', hr', hhost'⟩ : ∃ r, (Arrival.viaProxy.withHeaders Arrival.disguise).toRequest
      proxied.trustedProxies = .ok r ∧ decide (r.host = "elsewhere".toList) = true :=
    Except.exists_ok_of_any (by decide +kernel)
  rw [hr] at hrequest
  exact ⟨d, hd, hpeer, hsame, ⟨_, hrequest, of_decide_eq_true hhost⟩, r', hr',
    of_decide_eq_true hhost'⟩

section
variable {running : Running} {a : Arrival} {headers : List (Text × Text)}

/-- From whichever database, both are dispatched alike. -/
theorem dispatch_of_resembling {signer : Signer}
    (hd : Dispatcher.Wired running.dispatcher signer running.settings []) {r r' : Http.Request}
    (hmethod : r'.method = r.method) (h : r'.Resembles r) (s : State) :
    dispatch running r' s = dispatch running r s := by
  obtain ⟨holdings, ids, metrics⟩ := s
  cases holdings with
  | memory store =>
    obtain ⟨hresponse, hworld⟩ := Dispatcher.handle_of_resembling hd hmethod h (.inMemory true)
      running.settings running.settings.accessKeys ⟨store, ids, metrics⟩
    simp only [dispatch, hresponse, hworld]
  | sql backend =>
    obtain ⟨hresponse, hworld⟩ := Dispatcher.handle_of_resembling hd hmethod h
      (Storage.database (some running.settings.cacheSeconds)) running.settings
      running.settings.accessKeys ⟨Storage.Connection.begin backend, ids, metrics⟩
    simp only [dispatch, hresponse, hworld]

/-- A server gives an untrusted peer the same answer whatever forwarding headers it sends, and goes
over into the same state. -/
theorem answer_withHeaders {settings : Settings} (hstart : start settings = .ok running)
    (hpeer : a.Untrusted settings.trustedProxies) (hsame : ordinary headers = ordinary a.headers)
    (s : State) : answer (.ok running) (a.withHeaders headers) s = answer (.ok running) a s := by
  obtain ⟨hbuild, rfl⟩ := start_eq_ok hstart
  obtain ⟨signer, -, hd⟩ := Dispatcher.build_ok hbuild
  have hserve : ∀ health, serve running (a.withHeaders headers) health s =
      serve running a health s := by
    intro health
    have hrequest := Arrival.toRequest_withHeaders hpeer hsame
    unfold serve
    cases hr : a.toRequest running.settings.trustedProxies with
    | error defect =>
      rw [hr] at hrequest
      rw [hrequest]
      rfl
    | ok r =>
      rw [hr] at hrequest
      obtain ⟨hmethod, hresembles⟩ := Arrival.resembles_withHeaders hpeer hsame hr hrequest
      rw [hrequest]
      simp only [Except.map, dispatch_of_resembling hd hmethod hresembles]
  have horigin := Arrival.header?_withHeaders hsame "origin" (by decide)
  have hurl : ∀ served, ifUrl (a.withHeaders headers) served = ifUrl a served := by
    intro served
    unfold ifUrl
    rw [Arrival.urlHead_withHeaders hsame]
  have hreceive : receive (.ok running) (a.withHeaders headers) s = receive (.ok running) a s := by
    unfold receive
    show (match Entrance.of a.method a.path with | _ => _) = _
    simp only [serveIfStarted, hserve, hurl]
    rfl
  unfold answer
  rw [hreceive, horigin]

end

end AliasGate.Server
