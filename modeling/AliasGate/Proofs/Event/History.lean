import AliasGate.Proofs.Event.Ranking
import Mathlib.Data.List.Basic

/-!
# Registries with a history

A registry holds what its history gave it: the subscriptions that it accepted, each event's ranked.

* `Registry.ranked_eq_mergeSort`: ranking is stable sorting by descending priority. A list in that
  order is told by its parts of equal priority (`eq_of_descending`).
* `Registry.Call`, `Registry.after`: what can be asked of a registry, and what a fresh one has become
  after any number of calls.
* `Registry.accepted`: the subscriptions that a history makes, read off the calls.
* `Registry.after_history`: lists, refusals, and the end of startup, after any history.
-/

namespace AliasGate.Registry

variable {ℓ : Type}

/-! ## Ranking is sorting -/

/-- Of no lower priority: it may be told first. -/
def precedes (s t : Subscription ℓ) : Bool := decide (t.priority ≤ s.priority)

theorem precedes_trans (a b c : Subscription ℓ) (hab : precedes a b = true)
    (hbc : precedes b c = true) : precedes a c = true := by
  simp only [precedes, decide_eq_true_eq] at *
  omega

theorem precedes_total (a b : Subscription ℓ) : (precedes a b || precedes b a) = true := by
  simp only [precedes, Bool.or_eq_true, decide_eq_true_eq]
  omega

/-- In descending order of priority. -/
def Descending (subs : List (Subscription ℓ)) : Prop := subs.Pairwise fun s t => precedes s t = true

/-- The subscriptions of one priority. -/
def ofPriority (p : Int) (subs : List (Subscription ℓ)) : List (Subscription ℓ) :=
  subs.filter fun s => s.priority = p

theorem mem_ofPriority {p : Int} {s : Subscription ℓ} {subs : List (Subscription ℓ)} :
    s ∈ ofPriority p subs ↔ s ∈ subs ∧ s.priority = p := by
  simp [ofPriority]

theorem ofPriority_cons_of_eq {p : Int} {s : Subscription ℓ} (h : s.priority = p)
    (subs : List (Subscription ℓ)) : ofPriority p (s :: subs) = s :: ofPriority p subs :=
  List.filter_cons_of_pos (by simpa using h)

theorem ofPriority_cons_of_ne {p : Int} {s : Subscription ℓ} (h : s.priority ≠ p)
    (subs : List (Subscription ℓ)) : ofPriority p (s :: subs) = ofPriority p subs :=
  List.filter_cons_of_neg (by simpa using h)

/-- The first of a descending list has the highest priority that another such list can have. -/
theorem priority_le_of_descending {s t : Subscription ℓ} {ss ts : List (Subscription ℓ)}
    (ht : Descending (t :: ts))
    (h : ∀ p, ofPriority p (s :: ss) = ofPriority p (t :: ts)) : s.priority ≤ t.priority := by
  have hs : s ∈ ofPriority s.priority (t :: ts) :=
    h s.priority ▸ mem_ofPriority.mpr ⟨List.mem_cons_self, rfl⟩
  rcases List.mem_cons.mp (mem_ofPriority.mp hs).1 with rfl | hs
  · exact Int.le_refl _
  · simpa [precedes] using List.rel_of_pairwise_cons ht hs

/-- A descending list is told by its parts of equal priority. -/
theorem eq_of_descending {ss ts : List (Subscription ℓ)} (hs : Descending ss) (ht : Descending ts)
    (h : ∀ p, ofPriority p ss = ofPriority p ts) : ss = ts := by
  induction ss generalizing ts with
  | nil =>
    cases ts with
    | nil => rfl
    | cons t ts =>
      have hnil := h t.priority
      rw [ofPriority_cons_of_eq rfl] at hnil
      cases hnil
  | cons s ss ih =>
    cases ts with
    | nil =>
      have hnil := h s.priority
      rw [ofPriority_cons_of_eq rfl] at hnil
      cases hnil
    | cons t ts =>
      have hle := priority_le_of_descending ht h
      have hge := priority_le_of_descending hs fun p => (h p).symm
      have hpriority : t.priority = s.priority := Int.le_antisymm hge hle
      have hhead := h s.priority
      rw [ofPriority_cons_of_eq rfl, ofPriority_cons_of_eq hpriority] at hhead
      obtain ⟨rfl, -⟩ := List.cons.inj hhead
      refine congrArg (s :: ·) (ih hs.tail ht.tail fun p => ?_)
      have hp := h p
      by_cases hsp : s.priority = p
      · rw [ofPriority_cons_of_eq hsp, ofPriority_cons_of_eq hsp] at hp
        exact (List.cons.inj hp).2
      · rwa [ofPriority_cons_of_ne hsp, ofPriority_cons_of_ne hsp] at hp

theorem descending_insert {s : Subscription ℓ} {ts : List (Subscription ℓ)} (h : Descending ts) :
    Descending (insert s ts) := by
  induction ts with
  | nil => exact List.pairwise_singleton _ s
  | cons t ts ih =>
    have ⟨hhead, htail⟩ := List.pairwise_cons.mp h
    rw [insert]
    split
    next hle =>
      refine List.pairwise_cons.mpr ⟨fun u hu => ?_, ih htail⟩
      rcases mem_insert.mp hu with rfl | hu
      · simpa [precedes] using hle
      · exact hhead u hu
    next hgt =>
      refine List.pairwise_cons.mpr ⟨fun u hu => ?_, h⟩
      have hst : precedes s t = true := by
        simp only [precedes, decide_eq_true_eq]
        omega
      rcases List.mem_cons.mp hu with rfl | hu
      · exact hst
      · exact precedes_trans s t u hst (hhead u hu)

/-- A subscription comes last among those of its priority. -/
theorem ofPriority_insert {p : Int} {s : Subscription ℓ} {ts : List (Subscription ℓ)}
    (h : Descending ts) : ofPriority p (insert s ts) = ofPriority p ts ++ ofPriority p [s] := by
  induction ts with
  | nil => rfl
  | cons t ts ih =>
    have ⟨hhead, htail⟩ := List.pairwise_cons.mp h
    rw [insert]
    split
    · by_cases htp : t.priority = p
      · rw [ofPriority_cons_of_eq htp, ofPriority_cons_of_eq htp, ih htail, List.cons_append]
      · rw [ofPriority_cons_of_ne htp, ofPriority_cons_of_ne htp, ih htail]
    next hgt =>
      by_cases hsp : s.priority = p
      · have hnone : ofPriority p (t :: ts) = [] := by
          refine List.filter_eq_nil_iff.mpr fun u hu => ?_
          have hut : u.priority ≤ t.priority := by
            rcases List.mem_cons.mp hu with rfl | hu
            · exact Int.le_refl _
            · simpa [precedes] using hhead u hu
          simp only [decide_eq_true_eq]
          omega
        rw [ofPriority_cons_of_eq hsp, hnone, ofPriority_cons_of_eq hsp]
        rfl
      · rw [ofPriority_cons_of_ne hsp, ofPriority_cons_of_ne hsp]
        exact (List.append_nil _).symm

theorem rankBehind_spec {ts : List (Subscription ℓ)} (h : Descending ts)
    (subs : List (Subscription ℓ)) : Descending (rankBehind ts subs) ∧
      ∀ p, ofPriority p (rankBehind ts subs) = ofPriority p ts ++ ofPriority p subs := by
  induction subs generalizing ts with
  | nil => exact ⟨h, fun p => (List.append_nil _).symm⟩
  | cons s subs ih =>
    obtain ⟨hdescending, hparts⟩ := ih (descending_insert (s := s) h)
    refine ⟨hdescending, fun p => ?_⟩
    show ofPriority p (rankBehind (insert s ts) subs) = _
    rw [hparts, ofPriority_insert h, List.append_assoc]
    exact congrArg (_ ++ ·) (List.filter_append ..).symm

/-- Ranking is stable sorting: by descending priority, equal ones as they came. -/
theorem ranked_eq_mergeSort (subs : List (Subscription ℓ)) :
    ranked subs = subs.mergeSort precedes := by
  obtain ⟨hdescending, hparts⟩ := rankBehind_spec (List.Pairwise.nil) subs
  refine eq_of_descending hdescending
    (List.pairwise_mergeSort precedes_trans precedes_total subs) fun p => (hparts p).trans ?_
  have hequal : Descending (ofPriority p subs) := by
    refine List.pairwise_of_forall_mem_list fun s hs t ht => ?_
    have hsp := (mem_ofPriority.mp hs).2
    have htp := (mem_ofPriority.mp ht).2
    simp only [precedes, decide_eq_true_eq]
    omega
  have hsub : (ofPriority p subs).Sublist (subs.mergeSort precedes) :=
    List.sublist_mergeSort precedes_trans precedes_total hequal List.filter_sublist
  have hfiltered := hsub.filter fun s => decide (s.priority = p)
  rw [List.filter_eq_self.mpr fun s hs => by simpa using (mem_ofPriority.mp hs).2] at hfiltered
  exact hfiltered.eq_of_length ((List.mergeSort_perm subs precedes).symm.filter _).length_eq

/-! ## Calls -/

/-- What becomes of a subscription that is asked for: refused, or made for its event. -/
def offer (frozen : Bool) (subscriber : Subscriber ℓ) (e : Text × Int) :
    Except Fault (Text × Subscription ℓ) :=
  if e.1 = [] then .error (.defect .unnamedEvent)
  else if frozen then .error (.failure (.registryFrozen e.1))
  else
    match subscriber with
    | .listener l => .ok (e.1, ⟨e.2, l⟩)
    | .other description => .error (.failure (.invalidListener e.1 description))

theorem perform_subscribe (r : Registry ℓ) (subscriber : Subscriber ℓ) (e : Text × Int) :
    (subscribe e.1 subscriber e.2).perform r =
      match offer r.frozen subscriber e with
      | .ok s => (.ok (), r.accept s.1 s.2)
      | .error fault => (.error fault, r) := by
  simp only [subscribe, offer, Action.perform_bind, Action.perform_get, Action.andThen_ok]
  split
  · rfl
  · split
    · rfl
    · cases subscriber <;> rfl

/-- Subscribes to several events, up to the first refusal. -/
def addAs (subscriber : Subscriber ℓ) (events : List (Text × Int)) : Action (Registry ℓ) Unit :=
  events.forM fun e => subscribe e.1 subscriber e.2

/-- For a listener it is what the registry does itself. -/
theorem addAs_listener (l : ℓ) (events : List (Text × Int)) :
    addAs (.listener l) events = add l events := by
  induction events with
  | nil => rfl
  | cons e events ih =>
    rw [add, ← ih]
    rfl

theorem perform_addAs_cons (r : Registry ℓ) (subscriber : Subscriber ℓ) (e : Text × Int)
    (events : List (Text × Int)) :
    (addAs subscriber (e :: events)).perform r =
      match offer r.frozen subscriber e with
      | .ok s => (addAs subscriber events).perform (r.accept s.1 s.2)
      | .error fault => (.error fault, r) := by
  show (subscribe e.1 subscriber e.2 >>= fun _ => addAs subscriber events).perform r = _
  rw [Action.perform_bind, perform_subscribe]
  cases offer r.frozen subscriber e <;> rfl

/-- What can be asked of a registry: one subscription, several for one listener, or the end of
startup. -/
inductive Call (ℓ : Type) where
  | subscribe (subscriber : Subscriber ℓ) (event : Text × Int)
  | add (subscriber : Subscriber ℓ) (events : List (Text × Int))
  | freeze

/-- Carries out a call. -/
def Call.action : Call ℓ → Action (Registry ℓ) Unit
  | .subscribe subscriber e => Registry.subscribe e.1 subscriber e.2
  | .add subscriber events => addAs subscriber events
  | .freeze => Registry.freeze

/-- What a registry has become after calls, whatever each of them answered. -/
def afterFrom (r : Registry ℓ) (calls : List (Call ℓ)) : Registry ℓ :=
  calls.foldl (fun r c => (c.action.perform r).2) r

/-- What a fresh registry has become. -/
def after (calls : List (Call ℓ)) : Registry ℓ := afterFrom empty calls

theorem afterFrom_cons (r : Registry ℓ) (c : Call ℓ) (calls : List (Call ℓ)) :
    afterFrom r (c :: calls) = afterFrom (c.action.perform r).2 calls := rfl

theorem afterFrom_append (r : Registry ℓ) (calls later : List (Call ℓ)) :
    afterFrom r (calls ++ later) = afterFrom (afterFrom r calls) later :=
  List.foldl_append

/-! ## What is accepted -/

/-- The subscriptions made for several events: those before the first refusal. -/
def offers (frozen : Bool) (subscriber : Subscriber ℓ) :
    List (Text × Int) → List (Text × Subscription ℓ)
  | [] => []
  | e :: events =>
    match offer frozen subscriber e with
    | .ok s => s :: offers frozen subscriber events
    | .error _ => []

/-- The subscriptions that a call makes. -/
def Call.offers (frozen : Bool) : Call ℓ → List (Text × Subscription ℓ)
  | .subscribe subscriber e => Registry.offers frozen subscriber [e]
  | .add subscriber events => Registry.offers frozen subscriber events
  | .freeze => []

/-- Startup has ended after the call. -/
def Call.ends (frozen : Bool) : Call ℓ → Bool
  | .freeze => true
  | _ => frozen

/-- The subscriptions that calls make, in the order of acceptance. -/
def acceptedFrom : Bool → List (Call ℓ) → List (Text × Subscription ℓ)
  | _, [] => []
  | frozen, c :: calls => c.offers frozen ++ acceptedFrom (c.ends frozen) calls

/-- The subscriptions that a fresh registry accepts. -/
def accepted (calls : List (Call ℓ)) : List (Text × Subscription ℓ) := acceptedFrom false calls

/-- The subscriptions made for one event. -/
def madeFor (event : Text) (made : List (Text × Subscription ℓ)) : List (Subscription ℓ) :=
  (made.filter fun s => s.1 = event).map (·.2)

/-- The registry with more subscriptions, one after another. -/
def acceptAll (r : Registry ℓ) (made : List (Text × Subscription ℓ)) : Registry ℓ :=
  made.foldl (fun r s => r.accept s.1 s.2) r

theorem acceptAll_frozen (r : Registry ℓ) (made : List (Text × Subscription ℓ)) :
    (r.acceptAll made).frozen = r.frozen := by
  induction made generalizing r with
  | nil => rfl
  | cons s made ih => exact ih (r.accept s.1 s.2)

theorem subscriptionsOf_acceptAll (r : Registry ℓ) (made : List (Text × Subscription ℓ))
    (event : Text) :
    (r.acceptAll made).subscriptionsOf event =
      rankBehind (r.subscriptionsOf event) (madeFor event made) := by
  induction made generalizing r with
  | nil => rfl
  | cons s made ih =>
    show ((r.accept s.1 s.2).acceptAll made).subscriptionsOf event = _
    rw [ih, subscriptionsOf_accept]
    by_cases hs : s.1 = event <;> simp [madeFor, hs, rankBehind]

/-- Several subscriptions are made as far as they are accepted. -/
theorem perform_addAs (r : Registry ℓ) (subscriber : Subscriber ℓ) (events : List (Text × Int)) :
    ((addAs subscriber events).perform r).2 = r.acceptAll (offers r.frozen subscriber events) := by
  induction events generalizing r with
  | nil => rfl
  | cons e events ih =>
    rw [perform_addAs_cons, offers]
    cases offer r.frozen subscriber e with
    | error fault => rfl
    | ok s => exact ih (r.accept s.1 s.2)

/-- A call other than the end of startup makes its subscriptions and nothing else. -/
theorem perform_call (r : Registry ℓ) {c : Call ℓ} (h : c ≠ .freeze) :
    (c.action.perform r).2 = r.acceptAll (c.offers r.frozen) ∧ c.ends r.frozen = r.frozen := by
  cases c with
  | subscribe subscriber e =>
    refine ⟨?_, rfl⟩
    show ((Registry.subscribe e.1 subscriber e.2).perform r).2 =
      r.acceptAll (Registry.offers r.frozen subscriber [e])
    rw [perform_subscribe, Registry.offers]
    cases offer r.frozen subscriber e <;> rfl
  | add subscriber events => exact ⟨perform_addAs r subscriber events, rfl⟩
  | freeze => exact absurd rfl h

theorem frozen_afterFrom (r : Registry ℓ) (calls : List (Call ℓ)) :
    (afterFrom r calls).frozen = calls.foldl Call.ends r.frozen := by
  induction calls generalizing r with
  | nil => rfl
  | cons c calls ih =>
    rw [afterFrom_cons, ih, List.foldl_cons]
    refine congrArg (fun frozen => calls.foldl Call.ends frozen) ?_
    by_cases hc : c = .freeze
    · rw [hc]
      rfl
    · rw [(perform_call r hc).1, (perform_call r hc).2, acceptAll_frozen]

/-- After any calls an event has the subscriptions that they made for it, ranked behind those that
were there. -/
theorem subscriptionsOf_afterFrom (r : Registry ℓ) (calls : List (Call ℓ)) (event : Text) :
    (afterFrom r calls).subscriptionsOf event =
      rankBehind (r.subscriptionsOf event) (madeFor event (acceptedFrom r.frozen calls)) := by
  induction calls generalizing r with
  | nil => rfl
  | cons c calls ih =>
    have hmade : madeFor event (acceptedFrom r.frozen (c :: calls)) =
        madeFor event (c.offers r.frozen) ++ madeFor event (acceptedFrom (c.ends r.frozen) calls) := by
      rw [acceptedFrom, madeFor, List.filter_append, List.map_append]
      rfl
    rw [afterFrom_cons, ih, hmade, rankBehind_append]
    by_cases hc : c = .freeze
    · rw [hc]
      rfl
    · rw [(perform_call r hc).1, (perform_call r hc).2, subscriptionsOf_acceptAll, acceptAll_frozen]

/-! ## After the end of startup -/

theorem offers_frozen (subscriber : Subscriber ℓ) (events : List (Text × Int)) :
    offers true subscriber events = [] := by
  cases events with
  | nil => rfl
  | cons e events =>
    by_cases he : e.1 = [] <;> simp [offers, offer, he]

theorem perform_frozen {r : Registry ℓ} (h : r.frozen = true) (c : Call ℓ) :
    (c.action.perform r).2 = r := by
  by_cases hc : c = .freeze
  · obtain ⟨subscriptions, frozen⟩ := r
    subst hc
    subst h
    rfl
  · have hnone : c.offers true = [] := by
      cases c with
      | subscribe subscriber e => exact offers_frozen subscriber [e]
      | add subscriber events => exact offers_frozen subscriber events
      | freeze => rfl
    rw [(perform_call r hc).1, h, hnone]
    rfl

theorem afterFrom_frozen {r : Registry ℓ} (h : r.frozen = true) (calls : List (Call ℓ)) :
    afterFrom r calls = r := by
  induction calls with
  | nil => rfl
  | cons c calls ih =>
    rw [afterFrom_cons, perform_frozen h, ih]

theorem foldl_ends {calls : List (Call ℓ)} {frozen : Bool} :
    calls.foldl Call.ends frozen = true ↔ frozen = true ∨ .freeze ∈ calls := by
  induction calls generalizing frozen with
  | nil => simp
  | cons c calls ih =>
    rw [List.foldl_cons, ih]
    cases c <;> simp [Call.ends]

/-! ## Failures -/

theorem perform_subscribe_error {r r' : Registry ℓ} {subscriber : Subscriber ℓ} {e : Text × Int}
    {fault : Fault} (h : (subscribe e.1 subscriber e.2).perform r = (.error fault, r')) :
    r' = r ∧ offer r.frozen subscriber e = .error fault := by
  rw [perform_subscribe] at h
  cases ho : offer r.frozen subscriber e with
  | ok s =>
    rw [ho] at h
    cases h
  | error f =>
    rw [ho] at h
    cases h
    exact ⟨rfl, rfl⟩

/-- What fails is refused for one of three reasons. -/
theorem exists_offer_error_iff (frozen : Bool) (subscriber : Subscriber ℓ) (e : Text × Int) :
    (∃ fault, offer frozen subscriber e = .error fault) ↔
      e.1 = [] ∨ frozen = true ∨ ∃ description, subscriber = .other description := by
  unfold offer
  by_cases he : e.1 = []
  · simp [he]
  · cases frozen <;> cases subscriber <;> simp [he]

/-- Several subscriptions that fail leave those before the first refusal. -/
theorem perform_addAs_error {r r' : Registry ℓ} {subscriber : Subscriber ℓ}
    {events : List (Text × Int)} {fault : Fault}
    (h : (addAs subscriber events).perform r = (.error fault, r')) :
    ∃ before refused later, events = before ++ refused :: later ∧
      (addAs subscriber before).perform r = (.ok (), r') ∧
        (subscribe refused.1 subscriber refused.2).perform r' = (.error fault, r') := by
  induction events generalizing r with
  | nil => cases h
  | cons e events ih =>
    rw [perform_addAs_cons] at h
    cases ho : offer r.frozen subscriber e with
    | ok s =>
      rw [ho] at h
      obtain ⟨before, refused, later, rfl, hbefore, hrefused⟩ := ih h
      refine ⟨e :: before, refused, later, rfl, ?_, hrefused⟩
      rw [perform_addAs_cons, ho]
      exact hbefore
    | error f =>
      rw [ho] at h
      cases h
      refine ⟨[], e, events, rfl, rfl, ?_⟩
      rw [perform_subscribe, ho]

/-! ## Any history -/

/-- After any calls on a fresh registry, each event has the listeners of its accepted subscriptions,
stably sorted by priority. A refused subscription changes nothing, several keep those made before
the refusal, and nothing changes after `freeze`. -/
theorem after_history (calls : List (Call ℓ)) :
    (∀ event, (after calls).listeners event =
      ((madeFor event (accepted calls)).mergeSort precedes).map (·.listener)) ∧
    (∀ (subscriber : Subscriber ℓ) (e : Text × Int),
      ((∃ fault r, (subscribe e.1 subscriber e.2).perform (after calls) = (.error fault, r)) ↔
        e.1 = [] ∨ .freeze ∈ calls ∨ ∃ description, subscriber = .other description) ∧
      ∀ fault r, (subscribe e.1 subscriber e.2).perform (after calls) = (.error fault, r) →
        r = after calls) ∧
    (∀ (subscriber : Subscriber ℓ) events fault r,
      (addAs subscriber events).perform (after calls) = (.error fault, r) →
        ∃ before refused later, events = before ++ refused :: later ∧
          (addAs subscriber before).perform (after calls) = (.ok (), r) ∧
            (subscribe refused.1 subscriber refused.2).perform r = (.error fault, r)) ∧
    (.freeze ∈ calls → ∀ later, after (calls ++ later) = after calls) := by
  have hfrozen : (after calls).frozen = true ↔ .freeze ∈ calls := by
    unfold after
    rw [frozen_afterFrom, foldl_ends]
    simp [empty]
  refine ⟨fun event => ?_, fun subscriber e => ⟨?_, fun fault r h => (perform_subscribe_error h).1⟩,
    fun subscriber events fault r h => perform_addAs_error h, fun h later => ?_⟩
  · unfold listeners after accepted
    rw [subscriptionsOf_afterFrom, ← ranked_eq_mergeSort]
    rfl
  · rw [← hfrozen, ← exists_offer_error_iff]
    constructor
    · rintro ⟨fault, r, h⟩
      exact ⟨fault, (perform_subscribe_error h).2⟩
    · rintro ⟨fault, h⟩
      exact ⟨fault, after calls, by rw [perform_subscribe, h]⟩
  · unfold after at hfrozen ⊢
    rw [afterFrom_append, afterFrom_frozen (hfrozen.mpr h)]

/-- A history with equal and negative priorities, a listener that comes twice, refusals of each kind
and an end of startup. -/
def mixed : List (Call Nat) := [
  .subscribe (.listener 1) ("a".toList, 0),
  .subscribe (.listener 2) ("a".toList, -5),
  .subscribe (.listener 3) ([], 7),
  .add (.listener 4) [("b".toList, 1), ("a".toList, 0), ([], 2), ("a".toList, 9)],
  .subscribe (.other "int".toList) ("a".toList, 9),
  .subscribe (.listener 2) ("a".toList, 3),
  .freeze,
  .subscribe (.listener 5) ("a".toList, 9)]

/-- The failed addition left what came before its refusal, and nothing came after startup. -/
theorem after_history_mixed :
    ((madeFor "a".toList (accepted mixed)).mergeSort precedes).map (·.listener) = [2, 1, 4, 2] ∧
      (after (mixed ++ [.add (.listener 6) [("a".toList, 0)]])).listeners "a".toList =
        [2, 1, 4, 2] := by
  obtain ⟨hlists, -, -, hfrozen⟩ := after_history mixed
  have hlist : (after mixed).listeners "a".toList = [2, 1, 4, 2] := by decide
  refine ⟨(hlists "a".toList).symm.trans hlist, ?_⟩
  rw [hfrozen (by simp [mixed]), hlist]

end AliasGate.Registry
