import AliasGate.Proofs.Dispatch.Changes

/-!
# How requests that write are answered

On a server without hooks, the guard turns such a request away in every world or in none. So what
the guard says in one world can be followed into another one.

* `Dispatcher.handle_settled`: both cases, with the stage from which the operation starts.
* `Dispatcher.handle_deleteShortUrls`: what becomes of the records when those of an image are
  deleted.
* `Dispatcher.Created`, `Dispatcher.handle_createShortUrl`: how it is answered when a short URL is
  posted.
-/

namespace AliasGate

open Operation (idModel)

namespace Dispatcher

/-- The guard turns an event away whatever the stage, or it lets it pass whatever the stage. -/
theorem guardEnding_cases (name : Text) (v : Except Failure Verdict) :
    (∃ f, ∀ s : Stage Store, ∃ s', guardEnding name s v = (.error (.failure f), s') ∧
      s'.stock = s.stock) ∨
    ∀ s : Stage Store, ∃ s', guardEnding name s v = (.ok (), s') ∧ s'.stock = s.stock ∧
      s'.response = s.response := by
  cases v with
  | error f => exact .inl ⟨f, fun s => ⟨_, rfl, rfl⟩⟩
  | ok v =>
    cases hf : v.failure? with
    | some f =>
      refine .inl ⟨f, fun s => ⟨(s.noting (.guard name)).counting v, ?_, rfl⟩⟩
      rw [guardEnding, hf]
    | none =>
      refine .inr fun s => ⟨(s.noting (.guard name)).counting v, ?_, rfl, rfl⟩
      rw [guardEnding, hf]

section
variable {settings : Settings} {d : Dispatcher} {signer : Signer} {r : Http.Request} {u i : Text}

/-- A request that can change records is refused in every world, or its operation is done in every
world. -/
theorem handle_settled {order : Order} (hd : Wired d signer settings [])
    (hr : resolve r = .ok order) (hwrites : order.Writes) (healthy : Bool) (config : Settings)
    (keys : AccessKeys) :
    (∃ f, ∀ w : World Store,
      (d.handle (.inMemory healthy) config keys r w).response = .ofFailure f ∧
      (d.handle (.inMemory healthy) config keys r w).world.database = w.database) ∨
    ∀ w : World Store, ∃ s : Stage Store, s.database = w.database ∧ s.ids = w.ids ∧
      s.response = Http.Response.initial ∧
      d.handle (.inMemory healthy) config keys r w = answerOf order.method
        ((order.operation.perform (.inMemory healthy) d.idLength
          (routed r order.target)).perform s) := by
  have ht : order.target.resource ≠ .status ∧ order.target.resource ≠ .globalShortUrl := by
    cases hwrites <;> exact ⟨nofun, nofun⟩
  rcases guardEnding_cases ((event order r config keys).name ++ preSuffix)
    (verdict signer settings order r config keys) with ⟨f, hrefused⟩ | hpassed
  · refine .inl ⟨f, fun w => ?_⟩
    obtain ⟨s, hs, hstock⟩ := hrefused ⟨w, Exchange.initial⟩
    rw [handle_guarded hd hr ht.1 ht.2, hs]
    exact ⟨rfl, congrArg Prod.fst hstock⟩
  · refine .inr fun w => ?_
    obtain ⟨s, hs, hstock, hresponse⟩ := hpassed ⟨w, Exchange.initial⟩
    obtain ⟨hdatabase, hids⟩ := Prod.mk.inj hstock
    refine ⟨s.noting (.operation order.operation), hdatabase, hids, hresponse, ?_⟩
    rw [handle_guarded hd hr ht.1 ht.2, hs, Action.andThen_ok, perform_execute]
    rfl

/-- A request to delete the short URLs of an image is refused in every world, or it leaves those of
the other images in every world. -/
theorem handle_deleteShortUrls (hd : Wired d signer settings [])
    (hr : resolve r = .ok ⟨.shortUrls u i, .delete, .deleteShortUrls⟩) (healthy : Bool)
    (config : Settings) (keys : AccessKeys) :
    (∀ w : World Store,
      (d.handle (.inMemory healthy) config keys r w).world.database = w.database) ∨
    ∀ w : World Store,
      (d.handle (.inMemory healthy) config keys r w).world.database = w.database.ofOthers u i := by
  rcases handle_settled hd hr (.clear u i) healthy config keys with ⟨f, hrefused⟩ | hpassed
  · exact .inl fun w => (hrefused w).2
  · refine .inr fun w => ?_
    obtain ⟨s, hdatabase, -, -, hhandle⟩ := hpassed w
    rw [hhandle, Operation.perform_deleteShortUrls, ← hdatabase]
    rfl

/-- The answer to a posted short URL, in a world: the id of an agreeing one, or a new id under which
it was added, or the news that no id was found. -/
inductive Created (p : ShortUrl) (w : World Store) (a : Answer Store) : Prop
  | reused {id : Text} (hfound : w.database.idOf? p = some id)
    (hresponse : a.response = ⟨201, [], some (idModel id)⟩)
    (hdatabase : a.world.database = w.database) : Created p w a
  | added {id : Text} (hnew : w.database.idOf? p = none) (hfree : id ∉ Keyed.keys w.database)
    (hresponse : a.response = ⟨201, [], some (idModel id)⟩)
    (hdatabase : a.world.database = w.database ++ [(id, p)]) : Created p w a
  | failed (hnew : w.database.idOf? p = none) (hstatus : a.response.status = 500)
    (hdatabase : a.world.database = w.database) : Created p w a

/-- Whoever is answered by status 201 gets an id, and a short URL that agrees with the posted one is
stored under it. -/
theorem Created.stored {p : ShortUrl} {w : World Store} {a : Answer Store} (h : Created p w a)
    (hunique : (Keyed.keys w.database).Nodup) (hp : p.HasNames)
    (hstatus : a.response.status = 201) : ∃ id t, a.response = ⟨201, [], some (idModel id)⟩ ∧
      a.world.database.lookup? id = some t ∧ t.agrees p = true := by
  cases h with
  | @reused id hfound hresponse hdatabase =>
    obtain ⟨t, hfind⟩ := Store.idOf?_eq_some_iff.mp hfound
    obtain ⟨hlookup, hagrees⟩ := Store.lookup?_of_find? hunique hfind
    exact ⟨id, t, hresponse, hdatabase ▸ hlookup, hagrees⟩
  | @added id _ hfree hresponse hdatabase =>
    exact ⟨id, p, hresponse, hdatabase ▸ Store.lookup?_append_of_not_mem hfree p,
      ShortUrl.agrees_refl hp⟩
  | failed _ hfailed =>
    rw [hfailed] at hstatus
    cases hstatus

/-- What is posted well is answered by what its allocation ends in. -/
theorem created_of_perform {p : ShortUrl} (hposted : Operation.posted r = .ok p) (healthy : Bool)
    (length : Int) {w : World Store} {s : Stage Store} (hdatabase : s.database = w.database)
    (hids : s.ids = w.ids) (hresponse : s.response = Http.Response.initial) :
    Created p w (answerOf .post
      ((Operation.createShortUrl.perform (.inMemory healthy) length r).perform s)) := by
  have hends := Database.allocate_allocation healthy length p s.database s.ids
  rw [Operation.perform_createShortUrl hposted]
  generalize ((Database.inMemory healthy).allocate length p).perform (s.database, s.ids) = x at hends ⊢
  -- the answer starts out from the response that every request starts out with
  have hanswer : ∀ id : Text, (⟨201, s.response.headers, some (idModel id)⟩ : Http.Response) =
      ⟨201, [], some (idModel id)⟩ := fun id => by rw [hresponse]; rfl
  rw [hdatabase, hids] at hends
  cases hends with
  | reused hfound => exact .reused hfound (hanswer _) rfl
  | added hnew hfree => exact .added hnew hfree (hanswer _) rfl
  | failed hnew _ hstatus => exact .failed hnew hstatus rfl

/-- A request to create a short URL is refused in every world, or what it posts is allocated in every
world. -/
theorem handle_createShortUrl (hd : Wired d signer settings [])
    (hr : resolve r = .ok ⟨.shortUrls u i, .post, .createShortUrl⟩) (healthy : Bool)
    (config : Settings) (keys : AccessKeys) :
    (∃ f, ∀ w : World Store,
      (d.handle (.inMemory healthy) config keys r w).response = .ofFailure f ∧
      (d.handle (.inMemory healthy) config keys r w).world.database = w.database) ∨
    ∃ p, Operation.posted (routed r (.shortUrls u i)) = .ok p ∧
      ∀ w : World Store, Created p w (d.handle (.inMemory healthy) config keys r w) := by
  rcases handle_settled hd hr (.create u i) healthy config keys with hrefused | hpassed
  · exact .inl hrefused
  cases hposted : Operation.posted (routed r (.shortUrls u i)) with
  | error fault =>
    refine .inl ⟨fault.told, fun w => ?_⟩
    obtain ⟨s, hdatabase, -, -, hhandle⟩ := hpassed w
    rw [hhandle, Operation.perform_createShortUrl_refused hposted]
    exact ⟨rfl, hdatabase⟩
  | ok p =>
    refine .inr ⟨p, rfl, fun w => ?_⟩
    obtain ⟨s, hdatabase, hids, hresponse, hhandle⟩ := hpassed w
    rw [hhandle]
    exact created_of_perform hposted healthy d.idLength hdatabase hids hresponse

end

end Dispatcher

end AliasGate
