import AliasGate.Proofs.Dispatch.Effects
import AliasGate.Proofs.Dispatch.Writes

/-!
# What a request changes

On a server without hooks, a request leaves the records in memory as they were or changes them in
one of three ways.

* `Operation.posted_eq_ok_iff`: what it takes for a short URL to be posted.
* `Dispatcher.Change`: the ways in which a request can change records.
* `Dispatcher.handle_change`: there are no others, and ids are only ever taken from the script.
* `Dispatcher.Change.lookup?_eq`: what is not deleted is found as before.
-/

namespace AliasGate

/-- What stands in the body of a request and is of the image of its path. -/
theorem Operation.posted_eq_ok_iff {r : Http.Request} {p : ShortUrl} : posted r = .ok p ↔
    ∃ j, r.json = .ok j ∧ ShortUrl.ofJson j = .ok p ∧
      p.isOf r.route.givenUser r.route.givenImage = true := by
  unfold posted
  constructor
  · intro h
    split at h
    · cases h
    next j hj =>
      split at h
      · cases h
      · cases h
      next s hread =>
        split at h <;> cases h
        next hof => exact ⟨j, hj, hread, hof⟩
  · rintro ⟨j, hj, hread, hof⟩
    simp [hj, hread, hof]

namespace Dispatcher

/-- A request with the parts of its path, as its operation sees it. -/
def routed (r : Http.Request) (t : Target) : Http.Request := { r with route := t.params }

/-- The orders that can change records. -/
inductive Order.Writes : Order → Prop
  | create (u i : Text) : Writes ⟨.shortUrls u i, .post, .createShortUrl⟩
  | clear (u i : Text) : Writes ⟨.shortUrls u i, .delete, .deleteShortUrls⟩
  | remove (u i id : Text) : Writes ⟨.shortUrl u i id, .delete, .deleteShortUrl⟩

theorem writes_of_resolve {r : Http.Request} {order : Order} (hr : resolve r = .ok order)
    (h : order.operation.writes = true) : order.Writes := by
  have hop := resolve_operation hr
  obtain ⟨t, method, op⟩ := order
  cases t <;> cases method <;> cases hop <;> first | constructor | cases h

/-- What a request does to the records of a store: nothing, or it adds a posted short URL with which
none agrees, or it takes away the short URLs of an image or one of them. -/
inductive Change (length : Int) (r : Http.Request) (ids : IdSource) (store : Store) : Store → Prop
  | kept : Change length r ids store store
  | added {u i id : Text} {p : ShortUrl}
    (hr : resolve r = .ok ⟨.shortUrls u i, .post, .createShortUrl⟩)
    (hposted : Operation.posted (routed r (.shortUrls u i)) = .ok p) (hnew : store.idOf? p = none)
    (hfree : id ∉ Keyed.keys store) (hlength : 0 < length)
    (hid : ids.IsRegular length → IdSource.IsIdOf length id) :
    Change length r ids store (store ++ [(id, p)])
  | cleared {u i : Text} (hr : resolve r = .ok ⟨.shortUrls u i, .delete, .deleteShortUrls⟩) :
    Change length r ids store (store.ofOthers u i)
  | removed {u i id : Text} {s : ShortUrl}
    (hr : resolve r = .ok ⟨.shortUrl u i id, .delete, .deleteShortUrl⟩)
    (howned : store.owned? id u i = some s) :
    Change length r ids store (store.erase u i (some id))

section
variable {d : Dispatcher} {r : Http.Request} {order : Order}

/-- An operation changes the records in one of these ways, whatever it ends in. -/
theorem perform_change (hr : resolve r = .ok order) (healthy : Bool) (length : Int)
    (s : Stage Store) :
    Change length r s.ids s.database ((order.operation.perform (.inMemory healthy) length
      (routed r order.target)).perform s).2.database ∧
    ((order.operation.perform (.inMemory healthy) length
      (routed r order.target)).perform s).2.ids.script ⊆ s.ids.script := by
  cases hwrites : order.operation.writes with
  | false =>
    have hkept := Operation.perform_keeps_stock healthy length (routed r order.target) hwrites s
    obtain ⟨hdatabase, hids⟩ := Prod.mk.inj hkept
    rw [hdatabase, hids]
    exact ⟨.kept, List.Subset.refl _⟩
  | true =>
    cases writes_of_resolve hr hwrites with
    | clear u i =>
      rw [Operation.perform_deleteShortUrls]
      exact ⟨.cleared hr, List.Subset.refl _⟩
    | remove u i id =>
      rw [Operation.perform_deleteShortUrl]
      split
      · exact ⟨.kept, List.Subset.refl _⟩
      next t howned => exact ⟨.removed hr howned, List.Subset.refl _⟩
    | create u i =>
      cases hposted : Operation.posted (routed r (.shortUrls u i)) with
      | error fault =>
        rw [Operation.perform_createShortUrl_refused hposted]
        exact ⟨.kept, List.Subset.refl _⟩
      | ok p =>
        rw [Operation.perform_createShortUrl hposted]
        have hends := Database.allocate_allocation healthy length p s.database s.ids
        generalize ((Database.inMemory healthy).allocate length p).perform (s.database, s.ids) = x
          at hends
        cases hends with
        | reused => exact ⟨.kept, List.Subset.refl _⟩
        | added hnew hfree hlength hscript hid =>
          exact ⟨.added hr hposted hnew hfree hlength hid, hscript⟩
        | failed _ hscript => exact ⟨.kept, hscript⟩

/-- Answering changes neither records nor ids. -/
theorem answerOf_stock {δ : Type} (method : Http.Method) (x : Except Fault Unit × Stage δ) :
    (answerOf method x).world.database = x.2.database ∧ (answerOf method x).world.ids = x.2.ids := by
  rcases x with ⟨fault | _, s⟩ <;> exact ⟨rfl, rfl⟩

/-- **What a request changes.** Without hooks, a request changes the records in one of these ways,
and takes ids from the script only. -/
theorem handle_change (hd : d.Hookless) (healthy : Bool) (config : Settings) (keys : AccessKeys)
    (r : Http.Request) (w : World Store) :
    Change d.idLength r w.ids w.database
      (d.handle (.inMemory healthy) config keys r w).world.database ∧
    (d.handle (.inMemory healthy) config keys r w).world.ids.script ⊆ w.ids.script := by
  cases hr : resolve r with
  | error f =>
    rw [handle_of_refused hr]
    exact ⟨.kept, List.Subset.refl _⟩
  | ok order =>
    rw [handle_of_quiet hd.quiet hr, (answerOf_stock ..).1, (answerOf_stock ..).2]
    rcases hpre : (d.publish (.inMemory healthy) ".pre" (event order r config keys)).perform
      ⟨w, Exchange.initial⟩ with ⟨fault | _, s⟩
    · obtain ⟨hdatabase, hids⟩ := Prod.mk.inj (publish_stock (hd.unhooked _) hpre)
      rw [Action.andThen_error]
      exact ⟨hdatabase ▸ .kept, hids ▸ List.Subset.refl _⟩
    · obtain ⟨hdatabase, hids⟩ := Prod.mk.inj (publish_stock (hd.unhooked _) hpre)
      have hop := perform_change hr healthy d.idLength (s.noting (.operation order.operation))
      rw [Action.andThen_ok, perform_execute, ← hdatabase, ← hids]
      exact hop

end

/-- A request asks to delete all short URLs of the image, or the one under the id. -/
def Deletes (r : Http.Request) (id : Text) (t : ShortUrl) : Prop :=
  resolve r = .ok ⟨.shortUrls t.user t.image, .delete, .deleteShortUrls⟩ ∨
    resolve r = .ok ⟨.shortUrl t.user t.image id, .delete, .deleteShortUrl⟩

/-- Whatever a request changes, a short URL that it does not delete is found as before. -/
theorem Change.lookup?_eq {length : Int} {r : Http.Request} {ids : IdSource} {store store' : Store}
    {id : Text} {t : ShortUrl} (h : Change length r ids store store')
    (hunique : (Keyed.keys store).Nodup) (hfound : store.lookup? id = some t)
    (hspared : Deletes r id t → store' = store) : store'.lookup? id = some t := by
  have hfound' : Keyed.get? store id = some t := hfound
  cases h with
  | kept => exact hfound
  | added =>
    unfold Store.lookup?
    rw [Keyed.get?_append, hfound']
    rfl
  | @cleared u i hr =>
    by_cases hof : t.isOf u i = true
    · obtain ⟨rfl, rfl⟩ := ShortUrl.isOf_iff.mp hof
      rw [hspared (.inl hr)]
      exact hfound
    · unfold Store.lookup? Store.ofOthers
      rw [Keyed.get?_filter hunique, hfound']
      simp [Option.filter, hof]
  | @removed u i id' _ hr =>
    by_cases hdoomed : Store.isDoomed u i (some id') (id, t) = true
    · obtain ⟨hof, hid⟩ := Bool.and_eq_true_iff.mp hdoomed
      obtain ⟨rfl, rfl⟩ := ShortUrl.isOf_iff.mp hof
      obtain rfl : id = id' := by simpa using hid
      rw [hspared (.inr hr)]
      exact hfound
    · unfold Store.lookup? Store.erase
      rw [Keyed.get?_filter hunique, hfound']
      simp [Option.filter, hdoomed]

/-- A signer with one signature for everything, for requests that are easily signed. -/
def lax : Signer := ⟨.custom, ["accessToken".toList], fun _ _ _ => .ok "yes".toList⟩

/-- The private key of the user in those requests. -/
def laxKeys : AccessKeys := [("christer".toList, "key".toList)]

end Dispatcher

end AliasGate
