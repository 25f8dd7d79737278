import AliasGate.Dispatch.Dispatcher
import AliasGate.Proofs.Event.Publishing

/-!
# What a request leaves as it is

Which parts of the stage the listeners and the operations of a request leave alone.

* `Stage.Aside`: the parts of the stage that operations have no business with.
* `Dispatcher.publish_keeps_stock`: telling listeners other than hooks never changes the records or
  the ids to come.
* `Operation.perform_keeps`: what operations do to the stage, as what has to keep a part for them to
  keep it; a part aside is always kept (`perform_keeps_aside`).
* `Operation.perform_keeps_stock`: three of the operations change records, the others change neither
  these nor the ids to come.
* `Dispatcher.handle_database`, `Dispatcher.handle_checks`: the world after a request is that of its
  stage; the verdicts too, since only a status is counted besides.
-/

namespace AliasGate

open AliasGate.Action (Keeps)

/-! ## The parts of the stage -/

namespace Stage

variable {δ α β γ : Type}

/-- The records and the ids to come. -/
def stock (s : Stage δ) : δ × IdSource := (s.database, s.ids)

theorem onExchange_keeps_stock (a : Action Exchange α) :
    Keeps (fun s : Stage δ => s.stock) (onExchange a) := fun _ => rfl

theorem onExchange_keeps_metrics (a : Action Exchange α) :
    Keeps (fun s : Stage δ => s.metrics) (onExchange a) := fun _ => rfl

/-- An action that only looks at the database keeps records and ids. -/
theorem onDatabase_keeps_stock {a : Action δ α} (h : Keeps id a) :
    Keeps (fun s : Stage δ => s.stock) (onDatabase a) := fun s => congrArg (·, s.ids) (h s.database)

/-- The part `f` is the same whatever the records, the ids to come and the response are. -/
def Aside (f : Stage δ → γ) : Prop :=
  ∀ (s : Stage δ) (database : δ) (ids : IdSource) (response : Http.Response),
    f { s with database := database, ids := ids, response := response } = f s

theorem aside_metrics : Aside fun s : Stage δ => s.metrics := fun _ _ _ _ => rfl

theorem aside_calls : Aside fun s : Stage δ => s.calls := fun _ _ _ _ => rfl

section
variable {f : Stage δ → γ}

theorem Aside.onDatabase (hf : Aside f) (a : Action δ α) : Keeps f (onDatabase a) :=
  fun s => hf s _ s.ids s.response

theorem Aside.onAllocation (hf : Aside f) (a : Action (δ × IdSource) α) :
    Keeps f (onAllocation a) :=
  fun s => hf s _ _ s.response

theorem Aside.change (hf : Aside f) (g : Http.Response → Http.Response) :
    Keeps f (onExchange (Exchange.change g)) :=
  fun s => hf s s.database s.ids _

end

/-- A call that is noted stays the last one if what follows keeps the calls. -/
theorem calls_note {k : Unit → Action (Stage δ) β}
    (hk : Keeps (fun s : Stage δ => s.calls) (k ())) (c : Call) (s : Stage δ) :
    ((onExchange (Exchange.note c) >>= k).perform s).2.calls = s.calls ++ [c] :=
  hk _

end Stage

namespace Database

theorem lookup_keeps (healthy : Bool) (key : Text) : Keeps id ((inMemory healthy).lookup key) :=
  fun _ => rfl

theorem isHealthy_keeps (healthy : Bool) : Keeps id (inMemory healthy).isHealthy := fun _ => rfl

end Database

theorem Stage.lookup_keeps_stock (healthy : Bool) (key : Text) :
    Keeps (fun s : Stage Store => s.stock) (onDatabase ((Database.inMemory healthy).lookup key)) :=
  onDatabase_keeps_stock (Database.lookup_keeps healthy key)

/-! ## Listeners -/

namespace Listener

/-- The guard works on nothing but the count of its verdicts. -/
theorem check_keeps {δ γ : Type} {f : Stage δ → γ} (hf : ∀ v, Keeps f (Stage.count v)) (g : Guard)
    (e : Event) : Keeps f (check g e) := by
  refine Keeps.bind (fun _ => rfl) fun s => ?_
  refine Keeps.bind ?_ fun verdict => ?_
  · cases g.judge e s.response with
    | ok v => exact Keeps.pure _ _
    | error f => exact Keeps.fail _ _
  · refine Keeps.bind (hf verdict) fun _ => ?_
    cases verdict.failure? with
    | none => exact Keeps.pure _ _
    | some f => exact Keeps.fail _ _

/-- Finding a short URL is nothing but looking it up. -/
theorem resolve_keeps {δ γ : Type} {f : Stage δ → γ} {db : Database δ}
    (hlookup : ∀ key, Keeps f (Stage.onDatabase (db.lookup key))) (r : Http.Request) :
    Keeps f (resolve db r) := by
  refine Keeps.bind (hlookup _) fun found => ?_
  cases found with
  | none => exact Keeps.fail _ _
  | some u => exact Keeps.pure _ _

theorem tell_keeps_stock (healthy : Bool) {l : Listener} (hl : ∀ h, l ≠ .hook h) (e : Event) :
    Keeps (fun s : Stage Store => s.stock) (tell (.inMemory healthy) l e) := by
  cases l with
  | guard g =>
    refine Keeps.bind (Stage.onExchange_keeps_stock _) fun _ => ?_
    exact Keeps.bind (check_keeps (fun _ _ => rfl) g e) fun _ => Keeps.pure _ _
  | resolver =>
    refine Keeps.bind (Stage.onExchange_keeps_stock _) fun _ => ?_
    refine Keeps.bind (resolve_keeps (Stage.lookup_keeps_stock healthy) _) fun _ => ?_
    exact Keeps.bind (Stage.onExchange_keeps_stock _) fun _ => Keeps.pure _ _
  | hook h => exact absurd rfl (hl h)

end Listener

namespace Registry

section
variable {ℓ σ γ : Type} {f : σ → γ} {tell : ℓ → Action σ Event.Outcome} {ls : List ℓ}

/-- Telling in a row leads along a relation if telling each does. -/
theorem notify_leads {R : γ → γ → Prop} (hrefl : ∀ x, R x x)
    (htrans : ∀ x y z, R x y → R y z → R x z)
    (h : ∀ l ∈ ls, ∀ s, R (f s) (f ((tell l).perform s).2)) (s : σ) :
    R (f s) (f ((notify tell ls).perform s).2) := by
  induction ls generalizing s with
  | nil => exact hrefl _
  | cons l ls ih =>
    have hl := h l List.mem_cons_self s
    have hrest := ih fun k hk => h k (List.mem_cons_of_mem l hk)
    rcases htell : (tell l).perform s with ⟨fault | outcome, t⟩ <;> rw [htell] at hl
    · rw [notify_fault htell]
      exact hl
    by_cases hgo : outcome = .stop
    · subst hgo
      rw [notify_stop htell]
      exact hl
    · rw [notify_go htell hgo]
      refine htrans _ _ _ hl ?_
      have hgoing := hrest t
      generalize (notify tell ls).perform t = x at hgoing
      rcases x with ⟨_ | p, u⟩ <;> exact hgoing

/-- Telling in a row keeps what telling each keeps. -/
theorem notify_keeps (h : ∀ l ∈ ls, Keeps f (tell l)) : Keeps f (notify tell ls) :=
  notify_leads (R := fun x y => y = x) (fun _ => rfl) (fun _ _ _ hxy hyz => hyz.trans hxy) h

end

end Registry

namespace Dispatcher

section
variable {d : Dispatcher} {moment : String} {e : Event}
  (hl : ∀ h, Listener.hook h ∉ d.registry.listeners (e.name ++ moment.toList))
include hl

theorem publish_keeps_stock (healthy : Bool) :
    Keeps (fun s : Stage Store => s.stock) (d.publish (.inMemory healthy) moment e) := by
  refine Keeps.bind (Registry.notify_keeps fun l hmem => ?_) fun _ => Keeps.pure _ _
  exact Listener.tell_keeps_stock healthy (fun h heq => hl h (heq ▸ hmem)) _

theorem publish_stock {healthy : Bool} {s s' : Stage Store} {x : Except Fault Unit}
    (h : (d.publish (.inMemory healthy) moment e).perform s = (x, s')) : s'.stock = s.stock := by
  have hkept := publish_keeps_stock hl healthy s
  rwa [h] at hkept

end

end Dispatcher

/-! ## Operations -/

namespace Operation

/-- Operations that change records. -/
def writes : Operation → Bool
  | createShortUrl | deleteShortUrls | deleteShortUrl => true
  | showStatus | showUser | showShortUrl | showGlobalShortUrl => false

/-- What changes records is done to the short URLs of an image. -/
theorem resource_of_writes {t : Resource} {m : Http.Method} {op : Operation}
    (h : t.operation? m = some op) (hop : op.writes = true) : t = .shortUrls ∨ t = .shortUrl := by
  cases t <;> cases m <;> cases h <;> first | exact .inl rfl | exact .inr rfl | cases hop

section
variable {δ γ : Type} {f : Stage δ → γ} {db : Database δ}
  (hlookup : ∀ key, Keeps f (Stage.onDatabase (db.lookup key)))
include hlookup

theorem owned_keeps (r : Http.Request) : Keeps f (owned db r) := by
  refine Keeps.bind (hlookup _) fun found => ?_
  cases found with
  | none => exact Keeps.fail _ _
  | some u =>
    show Keeps _ (if _ then _ else _)
    split
    · exact Keeps.pure _ _
    · exact Keeps.fail _ _

/-- Operations look up short URLs, ask for the database's health and change the response. Only those
that change records do more to the database or draw ids. -/
theorem perform_keeps (hhealthy : Keeps f (Stage.onDatabase db.isHealthy))
    (hchange : ∀ g, Keeps f (Stage.onExchange (Exchange.change g))) {op : Operation}
    (hwrites : op.writes = true → Stage.Aside f) (idLength : Int) (r : Http.Request) :
    Keeps f (op.perform db idLength r) := by
  have hanswer : ∀ model, Keeps f (answer model) := fun model => hchange _
  cases op with
  | showStatus =>
    refine Keeps.bind hhealthy fun healthy => ?_
    refine Keeps.bind (hanswer _) fun _ => ?_
    cases healthy with
    | true => exact Keeps.pure _ _
    | false => exact hchange fun r => { r with status := 503 }
  | showUser => exact hanswer _
  | createShortUrl =>
    refine Keeps.bind (Keeps.ofResult _ _) fun s => ?_
    refine Keeps.bind ((hwrites rfl).onAllocation _) fun id => ?_
    exact Keeps.bind (hchange _) fun _ => hanswer _
  | deleteShortUrls => exact Keeps.bind ((hwrites rfl).onDatabase _) fun _ => hanswer _
  | showShortUrl => exact Keeps.bind (owned_keeps hlookup r) fun _ => hanswer _
  | deleteShortUrl =>
    refine Keeps.bind (owned_keeps hlookup r) fun _ => ?_
    exact Keeps.bind ((hwrites rfl).onDatabase _) fun _ => hanswer _
  | showGlobalShortUrl => exact Keeps.bind (Listener.resolve_keeps hlookup r) fun _ => hanswer _

end

theorem perform_keeps_aside {δ γ : Type} {f : Stage δ → γ} (hf : Stage.Aside f) (db : Database δ)
    (idLength : Int) (r : Http.Request) (op : Operation) :
    Keeps f (op.perform db idLength r) :=
  perform_keeps (fun _ => hf.onDatabase _) (hf.onDatabase _) hf.change (fun _ => hf) idLength r

theorem perform_keeps_stock (healthy : Bool) (idLength : Int) (r : Http.Request)
    {op : Operation} (h : op.writes = false) :
    Keeps (fun s : Stage Store => s.stock) (op.perform (.inMemory healthy) idLength r) := by
  refine perform_keeps (Stage.lookup_keeps_stock healthy)
    (Stage.onDatabase_keeps_stock (Database.isHealthy_keeps healthy))
    (fun _ => Stage.onExchange_keeps_stock _) (fun hwrites => ?_) idLength r
  rw [h] at hwrites
  cases hwrites

end Operation

/-! ## The whole request -/

namespace Dispatcher

variable {δ : Type}

theorem handle_database (d : Dispatcher) (db : Database δ) (config : Settings) (keys : AccessKeys)
    (r : Http.Request) (w : World δ) :
    (d.handle db config keys r w).world.database =
      ((d.process db config keys r).perform ⟨w, Exchange.initial⟩).2.database := by
  unfold handle
  rcases (d.process db config keys r).perform ⟨w, Exchange.initial⟩ with ⟨_ | _, _⟩ <;> rfl

theorem handle_checks (d : Dispatcher) (db : Database δ) (config : Settings) (keys : AccessKeys)
    (r : Http.Request) (w : World δ) :
    (d.handle db config keys r w).world.metrics.checks =
      ((d.process db config keys r).perform ⟨w, Exchange.initial⟩).2.metrics.checks := by
  unfold handle
  rcases (d.process db config keys r).perform ⟨w, Exchange.initial⟩ with ⟨_ | _, _⟩ <;> rfl

end Dispatcher

end AliasGate
