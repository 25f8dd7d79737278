import AliasGate.Event.Registry
import AliasGate.Proofs.Action

/-!
# Publishing

Whom a registry tells of an event, and how the telling ends.

* `Registry.Passes`: listeners told one after another, none of whom stops or fails.
* `Registry.Ending`: the three ways in which telling ends. Every list of listeners is told up to one
  of them (`notify_ending`), and each of them is what telling those listeners does
  (`Ending.perform`).
* `Registry.Session`: a registry in use, with a record of who was told of what.
* `Registry.publish_tells_prefix`: publishing an event tells a beginning of its listeners.
-/

namespace AliasGate.Registry

variable {ℓ σ κ : Type}

/-! ## One listener -/

section
variable {tell : ℓ → Action σ Event.Outcome} {l : ℓ} {ls : List ℓ} {s t : σ}

theorem notify_fault {fault : Fault} (h : (tell l).perform s = (.error fault, t)) :
    (notify tell (l :: ls)).perform s = (.error fault, t) := by
  simp [notify, h]

theorem notify_stop (h : (tell l).perform s = (.ok .stop, t)) :
    (notify tell (l :: ls)).perform s = (.ok ⟨1, true⟩, t) := by
  simp [notify, h]

/-- Whatever else a listener answers means nothing. -/
theorem notify_go {outcome : Event.Outcome} (h : (tell l).perform s = (.ok outcome, t))
    (hgo : outcome ≠ .stop) :
    (notify tell (l :: ls)).perform s = Action.andThen ((notify tell ls).perform t)
      fun rest => pure ⟨rest.called + 1, rest.stopped⟩ := by
  cases outcome with
  | stop => exact absurd rfl hgo
  | proceed => simp [notify, h]
  | other => simp [notify, h]

end

/-! ## Endings -/

/-- Listeners told one after another from one state to the next, none of whom stops or fails. -/
inductive Passes (tell : ℓ → Action σ Event.Outcome) : List ℓ → σ → σ → Prop
  | nil (s : σ) : Passes tell [] s s
  | cons {l : ℓ} {ls : List ℓ} {s t u : σ} {outcome : Event.Outcome}
    (htell : (tell l).perform s = (.ok outcome, t)) (hgo : outcome ≠ .stop)
    (hrest : Passes tell ls t u) : Passes tell (l :: ls) s u

/-- How telling ends, by those who were told and those who were not: all were told, or the last one
told stopped, or failed. -/
inductive Ending (tell : ℓ → Action σ Event.Outcome) (s : σ) :
    List ℓ → List ℓ → Except Fault Published → σ → Prop
  | all {told : List ℓ} {t : σ} (h : Passes tell told s t) :
    Ending tell s told [] (.ok ⟨told.length, false⟩) t
  | stopped {before untold : List ℓ} {l : ℓ} {t u : σ} (h : Passes tell before s t)
    (hstop : (tell l).perform t = (.ok .stop, u)) :
    Ending tell s (before ++ [l]) untold (.ok ⟨before.length + 1, true⟩) u
  | failed {before untold : List ℓ} {l : ℓ} {t u : σ} {fault : Fault} (h : Passes tell before s t)
    (hfault : (tell l).perform t = (.error fault, u)) :
    Ending tell s (before ++ [l]) untold (.error fault) u

section
variable {tell : ℓ → Action σ Event.Outcome} {s t u : σ} {told untold : List ℓ}
  {x : Except Fault Published}

/-- One listener more at the beginning. -/
theorem Ending.cons {l : ℓ} {outcome : Event.Outcome}
    (htell : (tell l).perform s = (.ok outcome, t)) (hgo : outcome ≠ .stop)
    (h : Ending tell t told untold x u) :
    Ending tell s (l :: told) untold (x.map fun p => ⟨p.called + 1, p.stopped⟩) u := by
  cases h with
  | all h => exact .all (.cons htell hgo h)
  | stopped h hstop => exact .stopped (.cons htell hgo h) hstop
  | failed h hfault => exact .failed (.cons htell hgo h) hfault

/-- Every list of listeners is told up to an ending. -/
theorem notify_ending (tell : ℓ → Action σ Event.Outcome) (ls : List ℓ) (s : σ) :
    ∃ told untold x t, ls = told ++ untold ∧ (notify tell ls).perform s = (x, t) ∧
      Ending tell s told untold x t := by
  induction ls generalizing s with
  | nil => exact ⟨[], [], _, _, rfl, rfl, .all (.nil s)⟩
  | cons l ls ih =>
    rcases h : (tell l).perform s with ⟨fault | outcome, t⟩
    · exact ⟨[l], ls, _, _, rfl, notify_fault h, .failed (.nil s) h⟩
    by_cases hgo : outcome = .stop
    · subst hgo
      exact ⟨[l], ls, _, _, rfl, notify_stop h, .stopped (.nil s) h⟩
    · obtain ⟨told, untold, x, u, rfl, hrest, hending⟩ := ih t
      refine ⟨l :: told, untold, _, u, rfl, ?_, hending.cons h hgo⟩
      rw [notify_go h hgo, hrest]
      cases x <;> rfl

/-- Behind listeners who let the telling go on, it goes on with the next ones. -/
theorem Passes.perform (h : Passes tell told s t) (ls : List ℓ) :
    (notify tell (told ++ ls)).perform s = Action.andThen ((notify tell ls).perform t)
      fun rest => pure ⟨told.length + rest.called, rest.stopped⟩ := by
  induction h with
  | nil s =>
    rw [List.nil_append]
    rcases (notify tell ls).perform s with ⟨_ | p, _⟩
    · rfl
    · simp
  | @cons _ _ _ _ u _ htell hgo _ ih =>
    rw [List.cons_append, notify_go htell hgo, ih]
    rcases (notify tell ls).perform u with ⟨_ | p, _⟩
    · rfl
    · simp only [Action.andThen_ok, Action.perform_pure, List.length_cons]
      rw [Nat.add_right_comm]

/-- An ending is what telling does. -/
theorem Ending.perform (h : Ending tell s told untold x u) :
    (notify tell (told ++ untold)).perform s = (x, u) := by
  cases h with
  | all h =>
    rw [h.perform]
    rfl
  | stopped h hstop =>
    rw [List.append_assoc, h.perform, List.singleton_append, notify_stop hstop]
    rfl
  | failed h hfault =>
    rw [List.append_assoc, h.perform, List.singleton_append, notify_fault hfault]
    rfl

/-- What each listener notes when told has been noted, in order, when all of them let the telling go
on. -/
theorem Passes.notes (trace : σ → List κ) {note : ℓ → κ}
    (htell : ∀ l s, trace ((tell l).perform s).2 = trace s ++ [note l])
    (h : Passes tell told s t) : trace t = trace s ++ told.map note := by
  induction h with
  | nil s => exact (List.append_nil _).symm
  | @cons l ls s t u outcome h hgo hrest ih =>
    have hl := htell l s
    rw [h] at hl
    rw [ih, hl, List.append_assoc, List.map_cons, List.singleton_append]

/-- The same at the end, for the last one told as well. -/
theorem Ending.notes (trace : σ → List κ) {note : ℓ → κ}
    (htell : ∀ l s, trace ((tell l).perform s).2 = trace s ++ [note l])
    (h : Ending tell s told untold x u) : trace u = trace s ++ told.map note := by
  have hlast : ∀ {before l t x u}, Passes tell before s t → (tell l).perform t = (x, u) →
      trace u = trace s ++ (before ++ [l]).map note := by
    intro before l t x u h hl
    have hnote := htell l t
    rw [hl] at hnote
    rw [hnote, h.notes trace htell, List.append_assoc, List.map_append, List.map_singleton]
  cases h with
  | all h => exact h.notes trace htell
  | stopped h hstop => exact hlast h hstop
  | failed h hfault => exact hlast h hfault

end

/-! ## Registries in use -/

/-- A registry in use: who was told of what so far, and what listeners work on. -/
structure Session (ℓ σ : Type) where
  registry : Registry ℓ
  record : List (ℓ × Event)
  state : σ

namespace Session

/-- Records that a listener is told of an event, and tells it. -/
def tell (tell : ℓ → Event → Action σ Event.Outcome) (l : ℓ) (e : Event) :
    Action (Session ℓ σ) Event.Outcome := do
  modify fun s => { s with record := s.record ++ [(l, e)] }
  (tell l e).onPart (·.state) fun s t => { s with state := t }

/-- Publishes an event in the registry. -/
def publish (name : Text) (event : Event) (tell : ℓ → Event → Action σ Event.Outcome) :
    Action (Session ℓ σ) Published := do
  (← get).registry.publish name event (Session.tell tell)

/-- The session after listeners were told of an event. -/
def after (s : Session ℓ σ) (told : List ℓ) (e : Event) (t : σ) : Session ℓ σ :=
  { s with record := s.record ++ told.map fun l => (l, e), state := t }

variable {tell : ℓ → Event → Action σ Event.Outcome} {e : Event} {s : Session ℓ σ} {t u : σ}
  {told untold : List ℓ} {l : ℓ} {x : Except Fault Published}

theorem perform_tell {x : Except Fault Event.Outcome} (h : (tell l e).perform t = (x, u))
    (s : Session ℓ σ) (told : List ℓ) :
    (Session.tell tell l e).perform (s.after told e t) = (x, s.after (told ++ [l]) e u) := by
  simp only [Session.tell, Action.perform_bind, Action.perform_modify, Action.andThen_ok,
    Action.perform_onPart, after, h, List.map_append, List.map_cons, List.map_nil,
    List.append_assoc]

/-- Recording does not change who lets the telling go on. -/
theorem passes (h : Passes (fun l => tell l e) told t u) (s : Session ℓ σ) (earlier : List ℓ) :
    Passes (fun l => Session.tell tell l e) told (s.after earlier e t)
      (s.after (earlier ++ told) e u) := by
  induction h generalizing earlier with
  | nil t =>
    rw [List.append_nil]
    exact .nil _
  | @cons l ls t _ u _ htell hgo _ ih =>
    refine .cons (perform_tell htell s earlier) hgo ?_
    have hrest := ih (earlier ++ [l])
    rwa [List.append_assoc, List.singleton_append] at hrest

/-- Recording does not change how telling ends. -/
theorem ending (h : Ending (fun l => tell l e) t told untold x u) (s : Session ℓ σ) :
    Ending (fun l => Session.tell tell l e) (s.after [] e t) told untold x (s.after told e u) := by
  cases h with
  | all h => exact .all (passes h s [])
  | stopped h hstop => exact .stopped (passes h s []) (perform_tell hstop s _)
  | failed h hfault => exact .failed (passes h s []) (perform_tell hfault s _)

end Session

/-- **Publishing.** A beginning of the event's listeners is told (`Ending`), each of them once, in
order, and of the event under the published name. The registry stays as it was. -/
theorem publish_tells_prefix (s : Session ℓ σ) (name : Text) (event : Event)
    (tell : ℓ → Event → Action σ Event.Outcome) :
    ∃ told untold x state, s.registry.listeners name = told ++ untold ∧
      Ending (fun l => tell l (event.renamed name)) s.state told untold x state ∧
      (s.registry.publish name event tell).perform s.state = (x, state) ∧
      (Session.publish name event tell).perform s =
        (x, ⟨s.registry, s.record ++ told.map fun l => (l, event.renamed name), state⟩) ∧
      (event.renamed name).name = name ∧ (event.renamed name).request = event.request ∧
        (event.renamed name).config = event.config ∧
        (event.renamed name).keys = event.keys := by
  obtain ⟨told, untold, x, state, hlisteners, hperform, hending⟩ :=
    notify_ending (fun l => tell l (event.renamed name)) (s.registry.listeners name) s.state
  refine ⟨told, untold, x, state, hlisteners, hending, hperform, ?_, rfl, rfl, rfl, rfl⟩
  have hstart : s.after [] (event.renamed name) s.state = s := by simp [Session.after]
  have hsession := (Session.ending hending s).perform
  rw [hstart, ← hlisteners] at hsession
  exact hsession

/-- An answer that reads like a stop is none. -/
example :
    ((notify (fun answer => (Action.ofResult answer : Action Unit Event.Outcome))
      [.ok (.other (.text "stop".toList)), .ok .stop, .error (.failure .internal)]).perform
      ()).1.toOption = some ⟨2, true⟩ := rfl

end AliasGate.Registry
