import AliasGate.Action
import AliasGate.Event.Basic

/-!
# The registry of listeners

Listeners subscribe to events by name and with a priority. Those of higher priority are told first;
those of equal priority in the order in which they subscribed. After startup the registry is frozen.

* `Registry.subscribe` adds one subscription or tells why it is refused.
* `Registry.publish` tells the listeners of an event one after another, until one stops or fails.
-/

namespace AliasGate

/-- A listener and its priority. -/
structure Subscription (ℓ : Type) where
  priority : Int
  listener : ℓ

/-- What is offered for a subscription: a listener, or something else of which there is only a
description. -/
inductive Subscriber (ℓ : Type) where
  | listener (l : ℓ)
  | other (description : Text)

/-- The subscriptions of each event, in the order of telling. -/
structure Registry (ℓ : Type) where
  subscriptions : Keyed Text (List (Subscription ℓ))
  frozen : Bool

namespace Registry

variable {ℓ σ : Type}

/-- No subscriptions yet. -/
def empty : Registry ℓ := ⟨[], false⟩

/-- The subscriptions of an event. -/
def subscriptionsOf (r : Registry ℓ) (event : Text) : List (Subscription ℓ) :=
  (Keyed.get? r.subscriptions event).getD []

/-- The listeners of an event, in the order in which they are told. -/
def listeners (r : Registry ℓ) (event : Text) : List ℓ :=
  (r.subscriptionsOf event).map (·.listener)

/-- An event has listeners. -/
def hasListeners (r : Registry ℓ) (event : Text) : Bool := !(r.subscriptionsOf event).isEmpty

/-! ## Subscribing -/

/-- Inserts a subscription behind those of the same or a higher priority. -/
def insert (s : Subscription ℓ) : List (Subscription ℓ) → List (Subscription ℓ)
  | [] => [s]
  | t :: ts => if s.priority ≤ t.priority then t :: insert s ts else s :: t :: ts

/-- Adds a subscription. Refused are, in this order: an event without a name, any subscription
after startup, and what is no listener. -/
def subscribe (event : Text) (subscriber : Subscriber ℓ) (priority : Int) :
    Action (Registry ℓ) Unit := do
  let r ← get
  if event = [] then Action.breakOff .unnamedEvent
  else if r.frozen then Action.fail (.registryFrozen event)
  else
    match subscriber with
    | .other description => Action.fail (.invalidListener event description)
    | .listener l =>
      set { r with
        subscriptions := Keyed.put r.subscriptions event
          (insert ⟨priority, l⟩ (r.subscriptionsOf event)) }

/-- Subscribes a listener to several events, up to the first refusal. -/
def add (listener : ℓ) : List (Text × Int) → Action (Registry ℓ) Unit
  | [] => pure ()
  | (event, priority) :: wanted => do
    subscribe event (.listener listener) priority
    add listener wanted

/-- Ends startup. -/
def freeze : Action (Registry ℓ) Unit := modify fun r => { r with frozen := true }

/-! ## Publishing -/

/-- How many listeners were told, and whether the last of them stopped. -/
structure Published where
  called : Nat
  stopped : Bool
  deriving DecidableEq, Repr

/-- Tells listeners one after another until one stops. A fault ends the telling as well. -/
def notify (tell : ℓ → Action σ Event.Outcome) : List ℓ → Action σ Published
  | [] => pure ⟨0, false⟩
  | l :: ls => do
    match ← tell l with
    | .stop => pure ⟨1, true⟩
    | _ =>
      let rest ← notify tell ls
      pure ⟨rest.called + 1, rest.stopped⟩

/-- Tells the listeners of the named event, under that name whatever name the event had. -/
def publish (r : Registry ℓ) (name : Text) (event : Event)
    (tell : ℓ → Event → Action σ Event.Outcome) : Action σ Published :=
  notify (fun l => tell l (event.renamed name)) (r.listeners name)

end Registry

end AliasGate
