import AliasGate.Proofs.Dispatch.Answers

/-!
# Runs of requests

What holds of the records in memory after any run of requests that began with none, on a server
without hooks.

* `Dispatcher.Reachable`: the worlds that runs lead to. Each request comes with settings of its own.
* `Dispatcher.Change.sound`: one request keeps a store sound; `Dispatcher.reachable_sound`: so does any
  run.
* `Store.Sound.ofPath?_eq`: every record of a sound store can be reached by its paths.
* `Dispatcher.handle_again_*`: what asking for the same again does.
* `Dispatcher.runs_keep_store`: all of it together.
-/

namespace AliasGate

open Operation (idModel)

/-! ## What may be posted -/

namespace Operation

variable {r : Http.Request} {p : ShortUrl}

theorem receivable_of_posted (h : posted r = .ok p) : p.Receivable := by
  obtain ⟨j, hj, hread, -⟩ := posted_eq_ok_iff.mp h
  unfold Http.Request.json at hj
  split at hj
  · cases hj
  · split at hj <;> cases hj
    next hbody =>
      exact ShortUrl.receivable_of_ofJson (Json.takes_of_readDocument hbody) hread

/-- What is posted is of an image that a path names. -/
theorem segments_of_posted {u i : Text} {method : Http.Method} {op : Operation}
    (hr : Dispatcher.resolve r = .ok ⟨.shortUrls u i, method, op⟩)
    (h : posted (Dispatcher.routed r (.shortUrls u i)) = .ok p) : '/' ∉ p.user ∧ '/' ∉ p.image := by
  obtain ⟨-, -, -, hof⟩ := posted_eq_ok_iff.mp h
  obtain ⟨huser, himage⟩ := ShortUrl.isOf_iff.mp hof
  obtain ⟨-, htarget, -, -⟩ := Dispatcher.resolve_eq_ok_iff.mp hr
  obtain ⟨⟨-, hu⟩, -, hi⟩ : Target.IsNamed (.shortUrls u i) := Target.isNamed_of_ofPath? htarget
  rw [huser, himage]
  exact ⟨hu, hi⟩

end Operation

/-! ## Sound stores -/

/-- Both paths of a record in a sound store lead to its id, under which it is found. -/
theorem Store.Sound.ofPath?_eq {length : Int} {store : Store} (h : store.Sound length)
    {record : Text × ShortUrl} (hrecord : record ∈ store) :
    Target.ofPath? (Target.globalShortUrl record.1).path = some (.globalShortUrl record.1) ∧
    Target.ofPath? (Target.shortUrl record.2.user record.2.image record.1).path =
      some (.shortUrl record.2.user record.2.image record.1) ∧
    store.lookup? record.1 = some record.2 := by
  have hid := (h.ids record hrecord).2
  have hreceivable := h.receivable record hrecord
  obtain ⟨huser, himage⟩ := h.segments record hrecord
  exact ⟨Target.ofPath?_path hid,
    Target.ofPath?_path ⟨⟨hreceivable.user, huser⟩, ⟨hreceivable.image, himage⟩, hid⟩,
    Keyed.get?_of_mem h.unique hrecord⟩

namespace Dispatcher

/-- One request keeps a store sound. -/
theorem Change.sound {length : Int} {r : Http.Request} {ids : IdSource} {store store' : Store}
    (h : Change length r ids store store') (hids : ids.IsRegular length)
    (hsound : store.Sound length) : store'.Sound length := by
  cases h with
  | kept => exact hsound
  | added hr hposted hnew hfree hlength hid =>
    have hform := hid hids
    exact hsound.add hfree ⟨hform.1, hform.isId hlength⟩ hnew (Operation.receivable_of_posted hposted)
      (Operation.segments_of_posted hr hposted)
  | cleared => exact hsound.sublist List.filter_sublist
  | removed => exact hsound.sublist List.filter_sublist

/-! ## Reachable worlds -/

/-- The worlds that requests lead to, one after another. -/
inductive Reachable {δ : Type} (d : Dispatcher) (db : Database δ) (w₀ : World δ) : World δ → Prop
  | start : Reachable d db w₀ w₀
  | next {w : World δ} (h : Reachable d db w₀ w) (config : Settings) (keys : AccessKeys)
    (r : Http.Request) : Reachable d db w₀ (d.handle db config keys r w).world

/-- A run that begins without records keeps the store sound and the ids to come regular. -/
theorem reachable_sound {d : Dispatcher} {healthy : Bool} {w₀ w : World Store} (hd : d.Hookless)
    (hempty : w₀.database = []) (hids : w₀.ids.IsRegular d.idLength)
    (h : Reachable d (.inMemory healthy) w₀ w) :
    w.database.Sound d.idLength ∧ w.ids.IsRegular d.idLength := by
  induction h with
  | start => exact ⟨hempty ▸ Store.sound_nil, hids⟩
  | next _ config keys r ih =>
    obtain ⟨hchange, hscript⟩ := handle_change hd healthy config keys r _
    exact ⟨hchange.sound ih.2 ih.1, ih.2.of_subset hscript⟩

/-! ## The same again -/

section
variable {settings : Settings} {d : Dispatcher} {signer : Signer} {r : Http.Request} {u i : Text}

/-- Deleting the short URLs of an image once more deletes nothing more. -/
theorem handle_again_deleteShortUrls (hd : Wired d signer settings [])
    (hr : resolve r = .ok ⟨.shortUrls u i, .delete, .deleteShortUrls⟩) (healthy : Bool)
    (config : Settings) (keys : AccessKeys) (w : World Store) :
    (d.handle (.inMemory healthy) config keys r
      (d.handle (.inMemory healthy) config keys r w).world).world.database =
        (d.handle (.inMemory healthy) config keys r w).world.database := by
  rcases handle_deleteShortUrls hd hr healthy config keys with hrefused | hpassed
  · exact hrefused _
  · rw [hpassed, hpassed, Store.ofOthers_ofOthers]

/-- Posting once more what was answered by an id creates nothing more, and the answer is the same. -/
theorem handle_again_createShortUrl (hd : Wired d signer settings [])
    (hr : resolve r = .ok ⟨.shortUrls u i, .post, .createShortUrl⟩) (healthy : Bool)
    (config : Settings) (keys : AccessKeys) (w : World Store)
    (hstatus : (d.handle (.inMemory healthy) config keys r w).response.status = 201) :
    (d.handle (.inMemory healthy) config keys r
      (d.handle (.inMemory healthy) config keys r w).world).world.database =
        (d.handle (.inMemory healthy) config keys r w).world.database ∧
    (d.handle (.inMemory healthy) config keys r
      (d.handle (.inMemory healthy) config keys r w).world).response =
        (d.handle (.inMemory healthy) config keys r w).response := by
  rcases handle_createShortUrl hd hr healthy config keys with
    ⟨f, hrefused⟩ | ⟨p, hposted, hcreated⟩
  · exact ⟨(hrefused _).2, (hrefused _).1.trans (hrefused w).1.symm⟩
  -- in the world after the first answer, the short URL is found under the id of that answer
  obtain ⟨id, hfound, hresponse⟩ : ∃ id,
      (d.handle (.inMemory healthy) config keys r w).world.database.idOf? p = some id ∧
      (d.handle (.inMemory healthy) config keys r w).response = ⟨201, [], some (idModel id)⟩ := by
    cases hcreated w with
    | reused hfound hresponse hdatabase => exact ⟨_, hdatabase ▸ hfound, hresponse⟩
    | @added id hnew hfree hresponse hdatabase =>
      have hagrees := ShortUrl.agrees_refl (Operation.receivable_of_posted hposted).hasNames
      exact ⟨id, hdatabase ▸ Store.idOf?_append_self hnew hagrees id, hresponse⟩
    | failed _ hfailed => simp [hfailed] at hstatus
  cases hcreated (d.handle (.inMemory healthy) config keys r w).world with
  | reused hfound' hresponse' hdatabase =>
    rw [hfound] at hfound'
    cases hfound'
    exact ⟨hdatabase, hresponse'.trans hresponse.symm⟩
  | added hnew => simp [hfound] at hnew
  | failed hnew => simp [hfound] at hnew

end

/-! ## The invariant -/

/-- **The store over runs.** After a run without hooks from an empty store, the store is
`Store.Sound`, and each record is found by both of its paths. The next request changes it as
`Change` says. To repeat a deletion of an image's short URLs, or a creation answered by status 201,
changes nothing more. -/
theorem runs_keep_store {settings : Settings} {offered : Option (Option Signer)} {d : Dispatcher}
    (hd : build settings offered [] = .ok d) (healthy : Bool) {w₀ w : World Store}
    (hempty : w₀.database = []) (hids : w₀.ids.IsRegular settings.idLength)
    (hw : Reachable d (.inMemory healthy) w₀ w) :
    w.database.Sound settings.idLength ∧
    (∀ record ∈ w.database,
      Target.ofPath? (Target.globalShortUrl record.1).path = some (.globalShortUrl record.1) ∧
      Target.ofPath? (Target.shortUrl record.2.user record.2.image record.1).path =
        some (.shortUrl record.2.user record.2.image record.1) ∧
      w.database.lookup? record.1 = some record.2) ∧
    ∀ (config : Settings) (keys : AccessKeys) (r : Http.Request) (answer : Answer Store),
      answer = d.handle (.inMemory healthy) config keys r w →
      (answer.world.database = w.database ∨
        (∃ u i p id, resolve r = .ok ⟨.shortUrls u i, .post, .createShortUrl⟩ ∧
          Operation.posted (routed r (.shortUrls u i)) = .ok p ∧
          (∀ record ∈ w.database, record.2.agrees p = false) ∧
          answer.world.database = w.database ++ [(id, p)]) ∨
        (∃ u i, resolve r = .ok ⟨.shortUrls u i, .delete, .deleteShortUrls⟩ ∧
          answer.world.database = w.database.filter fun record => !record.2.isOf u i) ∨
        ∃ u i id s before after, resolve r = .ok ⟨.shortUrl u i id, .delete, .deleteShortUrl⟩ ∧
          s.isOf u i = true ∧ w.database = before ++ (id, s) :: after ∧
          answer.world.database = before ++ after) ∧
      (∀ u i, resolve r = .ok ⟨.shortUrls u i, .delete, .deleteShortUrls⟩ →
        (d.handle (.inMemory healthy) config keys r answer.world).world.database =
          answer.world.database) ∧
      ∀ u i, resolve r = .ok ⟨.shortUrls u i, .post, .createShortUrl⟩ → answer.response.status = 201 →
        (d.handle (.inMemory healthy) config keys r answer.world).world.database =
          answer.world.database ∧
        (d.handle (.inMemory healthy) config keys r answer.world).response = answer.response := by
  obtain ⟨signer, -, hwired⟩ := build_ok hd
  have hbare := hwired.hookless
  have hsettings := build_idLength hd
  obtain ⟨hsound, -⟩ := reachable_sound hbare hempty (hsettings ▸ hids) hw
  refine ⟨hsettings ▸ hsound, fun record => hsound.ofPath?_eq, ?_⟩
  rintro config keys r answer rfl
  refine ⟨?_, fun u i hr => handle_again_deleteShortUrls hwired hr healthy config keys w,
    fun u i hr => handle_again_createShortUrl hwired hr healthy config keys w⟩
  have hchange := (handle_change hbare healthy config keys r w).1
  generalize (d.handle (.inMemory healthy) config keys r w).world.database = store at hchange
  cases hchange with
  | kept => exact .inl rfl
  | added hr hposted hnew =>
    exact .inr (.inl ⟨_, _, _, _, hr, hposted, Store.idOf?_eq_none_iff.mp hnew, rfl⟩)
  | cleared hr => exact .inr (.inr (.inl ⟨_, _, hr, rfl⟩))
  | removed hr howned =>
    obtain ⟨before, after, hbefore, hafter⟩ := Store.erase_some hsound.unique howned
    have hof := (Store.owned?_eq_some_iff.mp howned).2
    exact .inr (.inr (.inr ⟨_, _, _, _, before, after, hr, hof, hbefore, hafter⟩))

/-- Posts a short URL with one query argument. -/
def posting (value : String) : Http.Request :=
  ⟨"POST".toList, "http".toList, "imbo".toList, "/users/christer/images/abc/shortUrls".toList,
    "accessToken=yes".toList, [], {}, Utf8.encode
      ("\x7b\"user\":\"christer\",\"imageIdentifier\":\"abc\",\"query\":\x7b\"a\":" ++ value ++
        "\x7d\x7d").toList, 970⟩

/-- A world without records, with one id in the script. -/
def vacant : World Store := ⟨[], .ofScript ["abcdefg".toList], .zero⟩

theorem vacant_isRegular : vacant.ids.IsRegular 7 := by
  have halphabet : "abcdefg".toList.all (fun c => decide (c ∈ IdSource.alphabet)) = true := by decide
  intro id hid
  rw [List.mem_singleton.mp hid]
  exact ⟨rfl, fun c hc => of_decide_eq_true (List.all_eq_true.mp halphabet c hc)⟩

/-- After a request to create a short URL there is one, and the store is sound. -/
theorem runs_keep_store_posted :
    ∃ d, build .standard (some (some lax)) [] = .ok d ∧
      ∃ w, Reachable d (.inMemory true) vacant w ∧
        Keyed.keys w.database = ["abcdefg".toList] ∧ w.database.Sound 7 := by
  obtain ⟨d, hd, hkeys⟩ : ∃ d, build .standard (some (some lax)) [] = .ok d ∧
      decide (Keyed.keys (d.handle (.inMemory true) .standard laxKeys (posting "1")
        vacant).world.database = ["abcdefg".toList]) = true :=
    Except.exists_ok_of_any (by decide +kernel)
  have hreach : Reachable d (.inMemory true) vacant
      (d.handle (.inMemory true) .standard laxKeys (posting "1") vacant).world :=
    .next .start .standard laxKeys (posting "1")
  exact ⟨d, hd, _, hreach, of_decide_eq_true hkeys,
    (runs_keep_store hd true rfl vacant_isRegular hreach).1⟩

end Dispatcher

end AliasGate
