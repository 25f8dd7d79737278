import AliasGate.Event.Registry
import AliasGate.Proofs.Action
import AliasGate.Proofs.Keyed

/-!
# The order in which listeners are told

A registry keeps the subscriptions of each event ranked: by priority, and among equals in the order
in which they were made.

* `Registry.ranked`: subscriptions in the order of telling, from the order in which they were made.
  Those that come later with no higher priority stay behind all that came before
  (`ranked_append`).
* `subscriptionsOf_add`: a listener that subscribes to several events adds, for each event, exactly
  what it wants of that event (`Registry.wanted`).
-/

namespace AliasGate.Registry

variable {ℓ : Type}

/-! ## Ranking -/

/-- A subscription passes over all those of its own or a higher priority. -/
theorem insert_append {s : Subscription ℓ} {a : List (Subscription ℓ)} (b : List (Subscription ℓ))
    (h : ∀ t ∈ a, s.priority ≤ t.priority) : insert s (a ++ b) = a ++ insert s b := by
  induction a with
  | nil => rfl
  | cons t a ih =>
    have ht := h t List.mem_cons_self
    simp only [List.cons_append, insert, ht, ↓reduceIte]
    rw [ih fun u hu => h u (List.mem_cons_of_mem _ hu)]

theorem mem_insert {s t : Subscription ℓ} {ts : List (Subscription ℓ)} :
    t ∈ insert s ts ↔ t = s ∨ t ∈ ts := by
  induction ts with
  | nil => simp [insert]
  | cons u us ih =>
    rw [insert]
    split
    · rw [List.mem_cons, ih, List.mem_cons]
      exact or_left_comm
    · exact List.mem_cons

/-- Subscriptions made one after another behind those that are there. -/
def rankBehind (ts subs : List (Subscription ℓ)) : List (Subscription ℓ) :=
  subs.foldl (fun ts s => insert s ts) ts

/-- Subscriptions in the order of telling, from the order in which they were made. -/
def ranked (subs : List (Subscription ℓ)) : List (Subscription ℓ) := rankBehind [] subs

theorem rankBehind_append (ts a b : List (Subscription ℓ)) :
    rankBehind ts (a ++ b) = rankBehind (rankBehind ts a) b :=
  List.foldl_append

theorem mem_rankBehind {t : Subscription ℓ} {ts subs : List (Subscription ℓ)} :
    t ∈ rankBehind ts subs ↔ t ∈ ts ∨ t ∈ subs := by
  induction subs generalizing ts with
  | nil => simp [rankBehind]
  | cons s subs ih =>
    show t ∈ rankBehind (insert s ts) subs ↔ _
    rw [ih, mem_insert, List.mem_cons, or_comm (a := t = s), or_assoc]

theorem mem_ranked {t : Subscription ℓ} {subs : List (Subscription ℓ)} :
    t ∈ ranked subs ↔ t ∈ subs := by
  simp [ranked, mem_rankBehind]

theorem rankBehind_of_le {a subs : List (Subscription ℓ)} (b : List (Subscription ℓ))
    (h : ∀ s ∈ subs, ∀ t ∈ a, s.priority ≤ t.priority) :
    rankBehind (a ++ b) subs = a ++ rankBehind b subs := by
  induction subs generalizing b with
  | nil => rfl
  | cons s subs ih =>
    show rankBehind (insert s (a ++ b)) subs = a ++ rankBehind (insert s b) subs
    rw [insert_append b (h s List.mem_cons_self), ih _ fun u hu => h u (List.mem_cons_of_mem _ hu)]

/-- Later subscriptions of no higher priority are told after all the earlier ones. -/
theorem ranked_append {a b : List (Subscription ℓ)}
    (h : ∀ s ∈ b, ∀ t ∈ a, s.priority ≤ t.priority) : ranked (a ++ b) = ranked a ++ ranked b := by
  unfold ranked
  rw [rankBehind_append, ← List.append_nil (rankBehind [] a), rankBehind_of_le [], List.append_nil]
  intro s hs t ht
  exact h s hs t (mem_ranked.mp ht)

/-! ## Subscribing -/

/-- The registry with one subscription more. -/
def accept (r : Registry ℓ) (event : Text) (s : Subscription ℓ) : Registry ℓ :=
  { r with subscriptions := Keyed.put r.subscriptions event (insert s (r.subscriptionsOf event)) }

theorem subscriptionsOf_accept (r : Registry ℓ) (event name : Text) (s : Subscription ℓ) :
    (r.accept event s).subscriptionsOf name =
      if event = name then insert s (r.subscriptionsOf name) else r.subscriptionsOf name := by
  unfold subscriptionsOf accept
  rw [Keyed.get?_put]
  split
  · subst_vars
    rfl
  · rfl

theorem subscribe_ok {event : Text} {l : ℓ} {priority : Int} {r r' : Registry ℓ} {x : Unit}
    (h : (subscribe event (.listener l) priority).perform r = (.ok x, r')) :
    r' = r.accept event ⟨priority, l⟩ := by
  simp only [subscribe, Action.perform_bind, Action.perform_get, Action.andThen_ok] at h
  split at h
  · simp at h
  · split at h
    · simp at h
    · simp only [Action.perform_set, Prod.mk.injEq] at h
      exact h.2.symm

/-- What a listener wants of one event. -/
def wanted (l : ℓ) (events : List (Text × Int)) (name : Text) : List (Subscription ℓ) :=
  (events.filter fun e => e.1 = name).map fun e => ⟨e.2, l⟩

theorem subscriptionsOf_add {l : ℓ} {events : List (Text × Int)} {r r' : Registry ℓ} {x : Unit}
    (h : (add l events).perform r = (.ok x, r')) (name : Text) :
    r'.subscriptionsOf name = rankBehind (r.subscriptionsOf name) (wanted l events name) := by
  induction events generalizing r with
  | nil =>
    simp only [add, Action.perform_pure, Prod.mk.injEq] at h
    rw [← h.2]
    rfl
  | cons e events ih =>
    obtain ⟨event, priority⟩ := e
    obtain ⟨_, t, hs, ht⟩ := Action.bind_ok h
    rw [ih ht, subscribe_ok hs, subscriptionsOf_accept]
    by_cases he : event = name <;> simp [wanted, he, rankBehind]

/-- Freezing changes no list of subscriptions. -/
theorem subscriptionsOf_freeze {r r' : Registry ℓ} {x : Unit}
    (h : freeze.perform r = (.ok x, r')) (name : Text) :
    r'.subscriptionsOf name = r.subscriptionsOf name := by
  simp only [freeze, Action.perform_modify, Prod.mk.injEq] at h
  rw [← h.2]
  rfl

end AliasGate.Registry
