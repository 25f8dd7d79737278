import AliasGate.Proofs.Dispatch.Changes

/-!
# Images are isolated

What requests for the short URLs of one image have to do with those of all others.

* `Dispatcher.Change.ofOthers_eq`: such a request leaves the records of other images alone.
* `Stage.Alike`: two stages that differ at most in records of other images. What a request for one
  short URL of the image does keeps them so (`Dispatcher.execute_alike`).
* `Dispatcher.handle_isolates`: both together. An id of another image cannot be told from one that
  is not there.
-/

namespace AliasGate

/-! ## Other images -/

/-- A request for the short URLs of an image leaves those of other images alone. -/
theorem Dispatcher.Change.ofOthers_eq {length : Int} {r : Http.Request} {ids : IdSource}
    {store store' : Store} {t : Target} {user image : Text} (h : Change length r ids store store')
    (ht : Target.ofPath? (Percent.decode r.path) = some t) (huser : t.params.user = some user)
    (himage : t.params.image = some image) :
    store'.ofOthers user image = store.ofOthers user image := by
  -- the order that changes records is for the image that the path names
  have htarget : ∀ {order : Order}, resolve r = .ok order → order.target = t := fun hr =>
    Option.some.inj ((resolve_eq_ok_iff.mp hr).2.1.symm.trans ht)
  cases h with
  | kept => rfl
  | added hr hposted =>
    obtain rfl := htarget hr
    cases huser
    cases himage
    obtain ⟨-, -, -, hof⟩ := Operation.posted_eq_ok_iff.mp hposted
    exact Store.ofOthers_append hof store _
  | cleared hr =>
    obtain rfl := htarget hr
    cases huser
    cases himage
    exact Store.ofOthers_ofOthers store _ _
  | removed hr =>
    obtain rfl := htarget hr
    cases huser
    cases himage
    exact Store.ofOthers_erase store _ _ _

/-! ## Stages that look alike -/

/-- Stages that differ at most in records of other images than the one given. -/
structure Stage.Alike (user image : Text) (s t : Stage Store) : Prop where
  response : s.response = t.response
  calls : s.calls = t.calls
  metrics : s.metrics = t.metrics
  ids : s.ids = t.ids
  unique : (Keyed.keys s.database).Nodup
  unique' : (Keyed.keys t.database).Nodup
  records : s.database.ofImage user image = t.database.ofImage user image

/-- Endings in the same result, or the same fault, on stages that look alike. -/
def EndsAlike {α : Type} (user image : Text) (x y : Except Fault α × Stage Store) : Prop :=
  x.1 = y.1 ∧ x.2.Alike user image y.2

section
variable {user image : Text} {s t : Stage Store}

/-- Sequences end alike if their parts do. -/
theorem EndsAlike.andThen {α β : Type} {x y : Except Fault α × Stage Store}
    {f : α → Action (Stage Store) β} (h : EndsAlike user image x y)
    (hf : ∀ a s t, s.Alike user image t →
      EndsAlike user image ((f a).perform s) ((f a).perform t)) :
    EndsAlike user image (Action.andThen x f) (Action.andThen y f) := by
  obtain ⟨x, s⟩ := x
  obtain ⟨y, t⟩ := y
  obtain ⟨rfl, hst⟩ : x = y ∧ s.Alike user image t := h
  cases x with
  | error fault => exact ⟨rfl, hst⟩
  | ok a => exact hf a s t hst

namespace Stage.Alike

theorem noting (h : s.Alike user image t) (c : Call) :
    (s.noting c).Alike user image (t.noting c) :=
  ⟨h.response, congrArg (· ++ [c]) h.calls, h.metrics, h.ids, h.unique, h.unique', h.records⟩

theorem counting (h : s.Alike user image t) (v : Verdict) :
    (s.counting v).Alike user image (t.counting v) := by
  refine ⟨h.response, h.calls, ?_, h.ids, h.unique, h.unique', h.records⟩
  simp only [Stage.counting, h.metrics]

theorem answering (h : s.Alike user image t) (model : Json) :
    (s.answering model).Alike user image (t.answering model) := by
  refine ⟨?_, h.calls, h.metrics, h.ids, h.unique, h.unique', h.records⟩
  simp only [Stage.answering, h.response]

/-- What is found of the image is the same. -/
theorem owned?_eq (h : s.Alike user image t) (id : Text) :
    s.database.owned? id user image = t.database.owned? id user image := by
  rw [Store.owned?_eq h.unique, Store.owned?_eq h.unique', h.records]

theorem erasing (h : s.Alike user image t) (id : Option Text) :
    (s.withDatabase (s.database.erase user image id)).Alike user image
      (t.withDatabase (t.database.erase user image id)) := by
  refine ⟨h.response, h.calls, h.metrics, h.ids, Keyed.nodup_filter h.unique _,
    Keyed.nodup_filter h.unique' _, ?_⟩
  simp only [Stage.withDatabase, Store.ofImage_erase, h.records]

end Stage.Alike

end

namespace Dispatcher

section
variable {d : Dispatcher} {user image id : Text} {s t : Stage Store} {r : Http.Request}
  {order : Order}

theorem guardEnding_alike (h : s.Alike user image t) (name : Text) (v : Except Failure Verdict) :
    EndsAlike user image (guardEnding name s v) (guardEnding name t v) := by
  cases v with
  | error f => exact ⟨rfl, h.noting _⟩
  | ok v => exact ⟨rfl, (h.noting _).counting v⟩

/-- Looking for a short URL of the image ends alike. -/
theorem owned_alike (healthy : Bool) (r : Http.Request) (id : Text) (h : s.Alike user image t) :
    EndsAlike user image
      ((Operation.owned (.inMemory healthy) (routed r (.shortUrl user image id))).perform s)
      ((Operation.owned (.inMemory healthy) (routed r (.shortUrl user image id))).perform t) := by
  rw [Operation.perform_owned, Operation.perform_owned]
  exact ⟨congrArg orAbsent (h.owned?_eq id), h⟩

theorem operation_shortUrl {m : Http.Method} {op : Operation}
    (h : Resource.operation? .shortUrl m = some op) : op = .showShortUrl ∨ op = .deleteShortUrl := by
  cases m <;> cases h <;> first | exact .inl rfl | exact .inr rfl

/-- The operation of a request for one short URL of the image ends alike. -/
theorem execute_alike (healthy : Bool) (hr : resolve r = .ok order)
    (htarget : order.target = .shortUrl user image id) {e : Event}
    (he : e.request = routed r order.target) (h : s.Alike user image t) :
    EndsAlike user image ((d.execute (.inMemory healthy) order e).perform s)
      ((d.execute (.inMemory healthy) order e).perform t) := by
  have hnoted := h.noting (.operation order.operation)
  have hop := resolve_operation hr
  rw [htarget] at hop
  rw [perform_execute, perform_execute, he, htarget]
  -- whatever can be done with one short URL begins with looking for it
  rcases operation_shortUrl hop with hshow | hdelete
  · rw [hshow] at hnoted ⊢
    simp only [Operation.perform, Action.perform_bind]
    exact (owned_alike healthy r id hnoted).andThen fun u s t hst => ⟨rfl, hst.answering _⟩
  · rw [hdelete] at hnoted ⊢
    simp only [Operation.perform, Action.perform_bind]
    exact (owned_alike healthy r id hnoted).andThen fun u s t hst =>
      ⟨rfl, (hst.erasing _).answering _⟩

/-- Answers that differ at most in records of other images. -/
structure AnswersAlike (user image : Text) (a b : Answer Store) : Prop where
  response : a.response = b.response
  calls : a.calls = b.calls
  metrics : a.world.metrics = b.world.metrics
  ids : a.world.ids = b.world.ids
  records : a.world.database.ofImage user image = b.world.database.ofImage user image

theorem failed_alike (f : Failure) (h : s.Alike user image t) :
    AnswersAlike user image (failed f s) (failed f t) := by
  refine ⟨rfl, h.calls, ?_, h.ids, h.records⟩
  simp only [failed, h.metrics]

theorem answerOf_alike {x y : Except Fault Unit × Stage Store} (method : Http.Method)
    (h : EndsAlike user image x y) :
    AnswersAlike user image (answerOf method x) (answerOf method y) := by
  obtain ⟨x, s⟩ := x
  obtain ⟨y, t⟩ := y
  obtain ⟨rfl, hst⟩ : x = y ∧ s.Alike user image t := h
  cases x with
  | error fault => exact failed_alike fault.told hst
  | ok =>
    refine ⟨?_, hst.calls, hst.metrics, hst.ids, hst.records⟩
    simp only [answerOf, hst.response]

end

/-- **Isolation.** Without hooks, a request for a user and an image keeps the records `ofOthers`. If
it is for one short URL, its answers in worlds with the same records `ofImage` are alike
(`AnswersAlike`). -/
theorem handle_isolates {settings : Settings} {offered : Option (Option Signer)} {d : Dispatcher}
    (hd : build settings offered [] = .ok d) (healthy : Bool) (config : Settings) (keys : AccessKeys)
    {r : Http.Request} {t : Target} {user image : Text}
    (ht : Target.ofPath? (Percent.decode r.path) = some t) (huser : t.params.user = some user)
    (himage : t.params.image = some image) (w : World Store) :
    (d.handle (.inMemory healthy) config keys r w).world.database.ofOthers user image =
      w.database.ofOthers user image ∧
    ∀ (id : Text) (store : Store), t = .shortUrl user image id →
      (Keyed.keys w.database).Nodup → (Keyed.keys store).Nodup →
      w.database.ofImage user image = store.ofImage user image →
      AnswersAlike user image (d.handle (.inMemory healthy) config keys r w)
        (d.handle (.inMemory healthy) config keys r { w with database := store }) := by
  obtain ⟨s, -, hwired⟩ := build_ok hd
  have hchange := (handle_change hwired.hookless healthy config keys r w).1
  refine ⟨hchange.ofOthers_eq ht huser himage, ?_⟩
  rintro id store rfl hunique hunique' hrecords
  have hstart : Stage.Alike user image ⟨w, Exchange.initial⟩
      ⟨{ w with database := store }, Exchange.initial⟩ :=
    ⟨rfl, rfl, rfl, rfl, hunique, hunique', hrecords⟩
  cases hr : resolve r with
  | error f =>
    rw [handle_of_refused hr, handle_of_refused hr]
    exact failed_alike f hstart
  | ok order =>
    have htarget : order.target = .shortUrl user image id :=
      Option.some.inj ((resolve_eq_ok_iff.mp hr).2.1.symm.trans ht)
    have hresource : order.target.resource = .shortUrl := by rw [htarget]; rfl
    have hstatus : order.target.resource ≠ .status := by rw [hresource]; decide
    have hglobal : order.target.resource ≠ .globalShortUrl := by rw [hresource]; decide
    rw [handle_guarded hwired hr hstatus hglobal, handle_guarded hwired hr hstatus hglobal]
    exact answerOf_alike _ ((guardEnding_alike hstart _ _).andThen fun _ s t hst =>
      execute_alike healthy hr htarget rfl hst)

/-- Asks for a short URL of an image. -/
def inquiry : Http.Request :=
  ⟨"GET".toList, "http".toList, "imbo".toList, "/users/christer/images/abc/shortUrls/aaaaaaa".toList,
    "accessToken=yes".toList, [], {}, [], 970⟩

/-- A world in which the id of that request stands for another image. -/
def elsewhere : World Store :=
  ⟨[("aaaaaaa".toList, ⟨"christer".toList, "def".toList, none, []⟩)], .ofScript [], .zero⟩

/-- Whoever may ask for the short URLs of one image is answered as if there were no others. -/
theorem handle_isolates_absent :
    ∃ d, build .standard (some (some lax)) [] = .ok d ∧
      Target.ofPath? (Percent.decode inquiry.path) =
        some (.shortUrl "christer".toList "abc".toList "aaaaaaa".toList) ∧
      elsewhere.database.ofImage "christer".toList "abc".toList =
        Store.ofImage [] "christer".toList "abc".toList ∧
      (d.handle (.inMemory true) .standard laxKeys inquiry elsewhere).response =
        (d.handle (.inMemory true) .standard laxKeys inquiry
          { elsewhere with database := [] }).response ∧
      (d.handle (.inMemory true) .standard laxKeys inquiry elsewhere).world.metrics =
        ⟨[.verified], [404]⟩ := by
  obtain ⟨d, hd, hmetrics⟩ : ∃ d, build .standard (some (some lax)) [] = .ok d ∧
      decide ((d.handle (.inMemory true) .standard laxKeys inquiry elsewhere).world.metrics =
        ⟨[.verified], [404]⟩) = true :=
    Except.exists_ok_of_any (by decide +kernel)
  have ht : Target.ofPath? (Percent.decode inquiry.path) =
      some (.shortUrl "christer".toList "abc".toList "aaaaaaa".toList) := by decide +kernel
  have hrecords : elsewhere.database.ofImage "christer".toList "abc".toList =
      Store.ofImage [] "christer".toList "abc".toList := rfl
  obtain ⟨-, halike⟩ := handle_isolates hd true .standard laxKeys ht rfl rfl elsewhere
  exact ⟨d, hd, ht, hrecords,
    (halike _ [] rfl (List.pairwise_singleton _ _) List.nodup_nil hrecords).response,
    of_decide_eq_true hmetrics⟩

end Dispatcher

end AliasGate
