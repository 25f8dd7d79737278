import AliasGate.Dispatch.Dispatcher
import AliasGate.Proofs.Event.Ranking

/-!
# Who is told of which event

The listeners of a server after startup, event by event.

* `Dispatcher.build_ok`: a server that was built has a signer, and the subscriptions of every event
  are those of its guard, the resolver and its hooks, ranked.
* `Dispatcher.eventName_guarded`: every operation outside of the status page is announced by an
  event of the guard's list, whatever the method.
* `Dispatcher.listeners_before`: before such an operation the resolver (for public short URLs) and
  the guard are told first, provided that no hook claims a priority above the guard's there.
* `Dispatcher.Wired.quiet`: if hooks listen to events before operations only, nobody is told after an
  operation.
* `Dispatcher.Hookless`: a server without hooks, on which only guard and resolver are ever told.
-/

namespace AliasGate

open Registry (ranked rankBehind)

/-- The text behind the name of an operation in the event before it. -/
abbrev preSuffix : Text := ".pre".toList

/-- The text behind the name of an operation in the event after it. -/
abbrev postSuffix : Text := ".post".toList

namespace Dispatcher

/-! ## Startup -/

/-- The guard of a server with a signer. -/
def guardOf (signer : Signer) (settings : Settings) : Guard :=
  ⟨signer, settings.filter, Guard.guardedEvents, Guard.defaultPriority⟩

/-- All listeners of a server, in the order in which they subscribe. -/
def allListeners (signer : Signer) (settings : Settings) (hooks : List Hook) : List Listener :=
  .guard (guardOf signer settings) :: .resolver :: hooks.map .hook

/-- The subscriptions of a listener to an event. -/
def entriesOf (l : Listener) (event : Text) : List (Subscription Listener) :=
  Registry.wanted l l.subscriptions event

/-- The subscriptions of listeners to an event, in the order in which they are made. -/
def entriesOfAll (ls : List Listener) (event : Text) : List (Subscription Listener) :=
  ls.flatMap fun l => entriesOf l event

theorem mem_entriesOfAll {ls : List Listener} {event : Text} {s : Subscription Listener}
    (h : s ∈ entriesOfAll ls event) :
    s.listener ∈ ls ∧ (event, s.priority) ∈ s.listener.subscriptions := by
  simp only [entriesOfAll, entriesOf, Registry.wanted, List.mem_flatMap, List.mem_map,
    List.mem_filter, decide_eq_true_eq] at h
  obtain ⟨l, hl, ⟨e, ⟨he, rfl⟩, rfl⟩⟩ := h
  exact ⟨hl, he⟩

theorem subscriptionsOf_subscribeAll {ls : List Listener} {r r' : Registry Listener} {x : Unit}
    (h : (subscribeAll ls).perform r = (.ok x, r')) (event : Text) :
    r'.subscriptionsOf event = rankBehind (r.subscriptionsOf event) (entriesOfAll ls event) := by
  induction ls generalizing r with
  | nil => exact Registry.subscriptionsOf_freeze h event
  | cons l ls ih =>
    obtain ⟨_, t, hadd, hrest⟩ := Action.bind_ok h
    rw [ih hrest, Registry.subscriptionsOf_add hadd, ← Registry.rankBehind_append]
    rfl

/-- Each event has the subscriptions of all listeners, ranked. -/
def Wired (d : Dispatcher) (s : Signer) (settings : Settings) (hooks : List Hook) : Prop :=
  ∀ event, d.registry.subscriptionsOf event =
    ranked (entriesOfAll (allListeners s settings hooks) event)

/-- Whoever is told of an event is one of `allListeners` and listens to it. -/
theorem Wired.mem_listeners {settings : Settings} {hooks : List Hook} {d : Dispatcher} {s : Signer}
    (hd : Wired d s settings hooks) {event : Text} {l : Listener}
    (hl : l ∈ d.registry.listeners event) :
    l ∈ allListeners s settings hooks ∧ event ∈ Keyed.keys l.subscriptions := by
  unfold Registry.listeners at hl
  rw [hd] at hl
  obtain ⟨x, hx, rfl⟩ := List.mem_map.mp hl
  obtain ⟨hmem, he⟩ := mem_entriesOfAll (Registry.mem_ranked.mp hx)
  exact ⟨hmem, List.mem_map_of_mem he⟩

/-- What startup makes. -/
theorem build_ok {settings : Settings} {offered : Option (Option Signer)} {hooks : List Hook}
    {d : Dispatcher} (h : build settings offered hooks = .ok d) :
    ∃ s, signer settings offered = .ok (some s) ∧ Wired d s settings hooks := by
  unfold build at h
  split at h
  · cases h
  next offer hoffer =>
    cases offer with
    | none => cases h
    | some s =>
      refine ⟨s, hoffer, fun event => ?_⟩
      simp only [Guard.make] at h
      split at h
      · cases h
      next r hr =>
        cases h
        exact subscriptionsOf_subscribeAll hr event

/-- The length of ids is that of the settings. -/
theorem build_idLength {settings : Settings} {offered : Option (Option Signer)} {hooks : List Hook}
    {d : Dispatcher} (h : build settings offered hooks = .ok d) : d.idLength = settings.idLength := by
  unfold build at h
  split at h
  · cases h
  · split at h
    · cases h
    · simp only at h
      split at h <;> cases h
      rfl

/-! ## Guarded events -/

/-- The event of an operation, before or after it. -/
theorem eventName_guarded {t : Resource} {m : Http.Method} {op : Operation} (ht : t ≠ .status)
    (h : t.operation? m = some op) : t.eventName m ∈ Guard.guardedEvents := by
  cases t with
  | status => exact absurd rfl ht
  | _ => cases m <;> cases h <;> decide

/-- The guard wants each guarded event once. -/
theorem entriesOf_guard (s : Signer) (settings : Settings) {name : Text}
    (h : name ∈ Guard.guardedEvents) :
    entriesOf (.guard (guardOf s settings)) (name ++ preSuffix) =
      [⟨Guard.defaultPriority, .guard (guardOf s settings)⟩] := by
  have hone : ∀ name ∈ Guard.guardedEvents,
      ((Keyed.ofPairs (Guard.guardedEvents.map fun event =>
        (event ++ preSuffix, Guard.defaultPriority))).filter fun e => e.1 = name ++ preSuffix) =
        [(name ++ preSuffix, Guard.defaultPriority)] := by decide
  exact congrArg (List.map fun e => (⟨e.2, .guard (guardOf s settings)⟩ : Subscription Listener))
    (hone name h)

/-- The resolver wants the events before public short URLs are shown, and nothing else. -/
theorem entriesOf_resolver {t : Resource} {m : Http.Method} {op : Operation}
    (h : t.operation? m = some op) :
    entriesOf .resolver (t.eventName m ++ preSuffix) =
      if t = .globalShortUrl then [⟨Listener.resolverPriority, .resolver⟩] else [] := by
  cases t <;> cases m <;> cases h <;> rfl

/-! ## Who comes first -/

/-- No hook claims a priority above the guard's at a guarded event. -/
def HooksStandBack (hooks : List Hook) : Prop :=
  ∀ h ∈ hooks, ∀ e ∈ h.subscriptions, ∀ name ∈ Guard.guardedEvents, e.1 = name ++ preSuffix →
    e.2 ≤ Guard.defaultPriority

/-- The listeners other than hooks that are told before a guarded operation. -/
def ownListeners (t : Resource) (g : Guard) : List Listener :=
  if t = .globalShortUrl then [.resolver, .guard g] else [.guard g]

theorem mem_entriesOfAll_hooks {hooks : List Hook} {event : Text} {s : Subscription Listener}
    (h : s ∈ entriesOfAll (hooks.map .hook) event) :
    ∃ k ∈ hooks, s.listener = .hook k ∧ (event, s.priority) ∈ k.subscriptions := by
  obtain ⟨hl, he⟩ := mem_entriesOfAll h
  obtain ⟨k, hk, hlistener⟩ := List.mem_map.mp hl
  rw [← hlistener] at he
  exact ⟨k, hk, hlistener.symm, he⟩

/-- Before a guarded operation `ownListeners` are told first, and only hooks after them. -/
theorem listeners_before {settings : Settings} {hooks : List Hook} {d : Dispatcher} {s : Signer}
    {t : Resource} {m : Http.Method} {op : Operation}
    (hd : Wired d s settings hooks) (hhooks : HooksStandBack hooks) (ht : t ≠ .status)
    (hop : t.operation? m = some op) :
    ∃ rest, d.registry.listeners (t.eventName m ++ preSuffix) =
        ownListeners t (guardOf s settings) ++ rest ∧ ∀ l ∈ rest, ∃ h ∈ hooks, l = .hook h := by
  have hname := eventName_guarded ht hop
  have hsplit : entriesOfAll (allListeners s settings hooks) (t.eventName m ++ preSuffix) =
      (⟨Guard.defaultPriority, .guard (guardOf s settings)⟩ ::
        if t = .globalShortUrl then [⟨Listener.resolverPriority, .resolver⟩] else []) ++
      entriesOfAll (hooks.map .hook) (t.eventName m ++ preSuffix) := by
    simp only [entriesOfAll, allListeners, List.flatMap_cons]
    rw [entriesOf_guard s settings hname, entriesOf_resolver hop]
    rfl
  have hlow : ∀ x ∈ entriesOfAll (hooks.map .hook) (t.eventName m ++ preSuffix),
      x.priority ≤ Guard.defaultPriority := by
    intro x hx
    obtain ⟨k, hk, -, he⟩ := mem_entriesOfAll_hooks hx
    exact hhooks k hk _ he _ hname rfl
  refine ⟨(ranked (entriesOfAll (hooks.map .hook) (t.eventName m ++ preSuffix))).map (·.listener),
    ?_, ?_⟩
  · unfold Registry.listeners
    rw [hd, hsplit, Registry.ranked_append, List.map_append]
    · congr 1
      by_cases hg : t = .globalShortUrl <;> simp only [hg, ownListeners, ↓reduceIte] <;> rfl
    · intro x hx y hy
      have hdefault : Guard.defaultPriority ≤ y.priority := by
        by_cases hg : t = .globalShortUrl
        · simp only [hg, ↓reduceIte, List.mem_cons, List.not_mem_nil, or_false] at hy
          rcases hy with rfl | rfl
          · exact Int.le_refl _
          · exact (by decide : Guard.defaultPriority ≤ Listener.resolverPriority)
        · simp only [hg, ↓reduceIte, List.mem_cons, List.not_mem_nil, or_false] at hy
          subst hy
          exact Int.le_refl _
      exact Int.le_trans (hlow x hx) hdefault
  · intro l hl
    obtain ⟨x, hx, rfl⟩ := List.mem_map.mp hl
    obtain ⟨k, hk, hxk, -⟩ := mem_entriesOfAll_hooks (Registry.mem_ranked.mp hx)
    exact ⟨k, hk, hxk⟩

/-- Without hooks, nobody else is told before a guarded operation. -/
theorem listeners_before_nil {settings : Settings} {d : Dispatcher} {s : Signer} {t : Resource}
    {m : Http.Method} {op : Operation} (hd : Wired d s settings []) (ht : t ≠ .status)
    (hop : t.operation? m = some op) :
    d.registry.listeners (t.eventName m ++ preSuffix) = ownListeners t (guardOf s settings) := by
  obtain ⟨rest, hl, hrest⟩ :=
    listeners_before hd (fun _ hh => absurd hh List.not_mem_nil) ht hop
  have hnil : rest = [] := by
    refine List.eq_nil_iff_forall_not_mem.mpr fun l hl => ?_
    obtain ⟨k, hk, -⟩ := hrest l hl
    exact absurd hk List.not_mem_nil
  rw [hl, hnil, List.append_nil]

/-! ## Who comes after -/

theorem pre_ne_post (a b : Text) : a ++ preSuffix ≠ b ++ postSuffix := by
  intro h
  have hlast := congrArg List.getLast? h
  simp [preSuffix, postSuffix] at hlast

theorem guardOf_subscriptions (s : Signer) (settings : Settings) :
    (guardOf s settings).subscriptions =
      Guard.guardedEvents.map fun event => (event ++ preSuffix, Guard.defaultPriority) := by
  show Keyed.ofPairs (Guard.guardedEvents.map fun event =>
    (event ++ ".pre".toList, Guard.defaultPriority)) = _
  decide +kernel

/-- Who subscribes to events before operations only wants none after an operation. -/
theorem entriesOf_eq_nil {l : Listener} (h : ∀ e ∈ l.subscriptions, ∃ name, e.1 = name ++ preSuffix)
    (name : Text) : entriesOf l (name ++ postSuffix) = [] := by
  unfold entriesOf Registry.wanted
  rw [List.map_eq_nil_iff, List.filter_eq_nil_iff]
  intro e he heq
  obtain ⟨pre, hpre⟩ := h e he
  exact pre_ne_post pre name (hpre.symm.trans (of_decide_eq_true heq))

theorem entriesOf_guard_after (s : Signer) (settings : Settings) (name : Text) :
    entriesOf (.guard (guardOf s settings)) (name ++ postSuffix) = [] := by
  refine entriesOf_eq_nil (fun e he => ?_) name
  have he : e ∈ (guardOf s settings).subscriptions := he
  rw [guardOf_subscriptions] at he
  obtain ⟨event, -, rfl⟩ := List.mem_map.mp he
  exact ⟨event, rfl⟩

theorem entriesOf_resolver_after (name : Text) : entriesOf .resolver (name ++ postSuffix) = [] := by
  refine entriesOf_eq_nil (fun e he => ?_) name
  rcases List.mem_cons.mp he with rfl | he
  · exact ⟨"globalshorturl.get".toList, rfl⟩
  · exact ⟨"globalshorturl.head".toList, congrArg Prod.fst (List.mem_singleton.mp he)⟩

/-- Only hooks subscribe to events after operations. -/
theorem entriesOfAll_after (s : Signer) (settings : Settings) (hooks : List Hook) (name : Text) :
    entriesOfAll (allListeners s settings hooks) (name ++ postSuffix) =
      entriesOfAll (hooks.map .hook) (name ++ postSuffix) := by
  simp only [entriesOfAll, allListeners, List.flatMap_cons, entriesOf_guard_after,
    entriesOf_resolver_after, List.nil_append]

/-- Hooks listen to events before operations only. -/
def HooksComeBefore (hooks : List Hook) : Prop :=
  ∀ h ∈ hooks, ∀ e ∈ h.subscriptions, ∃ name, e.1 = name ++ preSuffix

theorem hooksComeBefore_nil : HooksComeBefore [] := fun _ h => absurd h List.not_mem_nil

/-- Nobody is told after an operation. -/
def Quiet (d : Dispatcher) : Prop := ∀ name, d.registry.listeners (name ++ postSuffix) = []

theorem Wired.quiet {settings : Settings} {hooks : List Hook} {d : Dispatcher} {s : Signer}
    (hd : Wired d s settings hooks) (hhooks : HooksComeBefore hooks) : d.Quiet := by
  intro name
  have hnone : entriesOfAll (hooks.map .hook) (name ++ postSuffix) = [] := by
    refine List.flatMap_eq_nil_iff.mpr fun l hl => ?_
    obtain ⟨h, hh, rfl⟩ := List.mem_map.mp hl
    exact entriesOf_eq_nil (l := .hook h) (hhooks h hh) name
  unfold Registry.listeners
  rw [hd, entriesOfAll_after, hnone]
  rfl

/-! ## Without hooks -/

/-- No hook is ever told, and nobody is told after an operation. -/
structure Hookless (d : Dispatcher) : Prop where
  unhooked : ∀ event h, Listener.hook h ∉ d.registry.listeners event
  quiet : d.Quiet

theorem Wired.hookless {settings : Settings} {d : Dispatcher} {s : Signer}
    (hd : Wired d s settings []) : d.Hookless := by
  refine ⟨fun event h hmem => ?_, hd.quiet hooksComeBefore_nil⟩
  have hall := (hd.mem_listeners hmem).1
  simp [allListeners] at hall

end Dispatcher

end AliasGate
