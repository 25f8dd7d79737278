import AliasGate.Proofs.Dispatch.Public
import AliasGate.Proofs.Dispatch.Runs

/-!
# What created short URLs mean

A short URL that was created is served again under its id, on a server without hooks.

* `Dispatcher.created_means`: what is served under the id that a request to create was answered
  with. It is the first stored short URL that agrees with what was posted, and what was posted only
  if none agreed before.
* `Dispatcher.created_means_other`: that need not be the same value: `true` is served as `1`.
-/

namespace AliasGate

open Operation (idModel)

theorem Operation.idModel_inj {id id' : Text} : idModel id = idModel id' ↔ id = id' := by
  simp [idModel, Json.object, Json.text]

/-- A value that is the same as the one that names an id is that value. -/
theorem Operation.eq_idModel_of_same {id : Text} {j : Json} (h : (idModel id).same j = true) :
    j = idModel id := by
  obtain ⟨ns, rfl, hlength, hmembers⟩ := Json.agreesBy_obj.mp h
  obtain ⟨n, rfl⟩ := List.length_eq_one_iff.mp hlength.symm
  obtain ⟨y, hy, hagrees⟩ := hmembers _ List.mem_cons_self
  rw [Json.text, Json.agreesBy_str] at hagrees
  have hn := List.mem_singleton.mp (Keyed.mem_of_get? hy)
  rw [← hn, hagrees]
  rfl

namespace Dispatcher

/-- **What a created short URL means.** After a run without hooks from an empty store, the id in the
answer to a request that posts `p` is served as the first stored short URL that agrees with `p`,
else as `p`. If the query of `p` is firm (`Json.IsFirm`), that is the same value as `p`. -/
theorem created_means {settings : Settings} {offered : Option (Option Signer)} {d : Dispatcher}
    (hd : build settings offered [] = .ok d) (healthy : Bool) {w₀ w : World Store}
    (hempty : w₀.database = []) (hids : w₀.ids.IsRegular settings.idLength)
    (hw : Reachable d (.inMemory healthy) w₀ w) {r : Http.Request} {u i : Text}
    (hr : resolve r = .ok ⟨.shortUrls u i, .post, .createShortUrl⟩) (config : Settings)
    (keys : AccessKeys) {answer : Answer Store}
    (hanswer : answer = d.handle (.inMemory healthy) config keys r w) {id : Text}
    (hstatus : answer.response.status = 201) (hmodel : answer.response.model = some (idModel id)) :
    ∃ p s, Operation.posted (routed r (.shortUrls u i)) = .ok p ∧
      answer.world.database.lookup? id = some s ∧
      (∀ (config : Settings) (keys : AccessKeys) (r' : Http.Request),
        r'.method.upper = Http.Method.get.name →
        Percent.decode r'.path = (Target.globalShortUrl id).path →
        (d.handle (.inMemory healthy) config keys r' answer.world).response =
          ⟨200, [(Http.Response.shortUrlHeader, id)], some s.toJson⟩) ∧
      s.agrees p = true ∧
      s = ((w.database.find? fun record => record.2.agrees p).elim p Prod.snd) ∧
      (s.toJson.same p.toJson = true ↔
        ∀ record, w.database.find? (fun record => record.2.agrees p) = some record →
          record.2.toJson.same p.toJson = true) ∧
      ((Json.obj p.query).All Json.IsFirm → s.toJson.same p.toJson = true) := by
  obtain ⟨signer, -, hwired⟩ := build_ok hd
  have hbare := hwired.hookless
  have hreach := hw.next config keys r
  rw [← hanswer] at hreach
  rw [← build_idLength hd] at hids
  obtain ⟨hsound, -⟩ := reachable_sound hbare hempty hids hw
  obtain ⟨hsound', -⟩ := reachable_sound hbare hempty hids hreach
  rcases handle_createShortUrl hwired hr healthy config keys with
    ⟨f, hrefused⟩ | ⟨p, hposted, hcreated⟩
  · -- the answer to a failure names no id
    rw [hanswer, (hrefused w).1] at hmodel
    cases hmodel
  have hnames := (Operation.receivable_of_posted hposted).hasNames
  have answered : ∀ {id' : Text}, answer.response = ⟨201, [], some (idModel id')⟩ → id' = id := by
    intro id' h
    rw [h] at hmodel
    exact Operation.idModel_inj.mp (Option.some.inj hmodel)
  obtain ⟨s, hlookup, hagrees, hs⟩ : ∃ s, answer.world.database.lookup? id = some s ∧
      s.agrees p = true ∧
      s = ((w.database.find? fun record => record.2.agrees p).elim p Prod.snd) := by
    have hend := hcreated w
    rw [← hanswer] at hend
    cases hend with
    | reused hfound hresponse hdatabase =>
      obtain ⟨t, hfind⟩ := Store.idOf?_eq_some_iff.mp hfound
      obtain rfl := answered hresponse
      exact ⟨t, hdatabase ▸ (Store.lookup?_of_find? hsound.unique hfind).1,
        (Store.lookup?_of_find? hsound.unique hfind).2, by rw [hfind]; rfl⟩
    | added hnew hfree hresponse hdatabase =>
      have hfind : w.database.find? (fun record => record.2.agrees p) = none := by
        simpa [Store.idOf?] using hnew
      obtain rfl := answered hresponse
      exact ⟨p, hdatabase ▸ Store.lookup?_append_of_not_mem hfree p, ShortUrl.agrees_refl hnames,
        by rw [hfind]; rfl⟩
    | failed _ hfailed => simp [hfailed] at hstatus
  have hid : Target.isId id = true :=
    (hsound'.ids _ (Keyed.mem_of_get? hlookup)).2
  refine ⟨p, s, hposted, hlookup, fun config keys r' hmethod hpath =>
    handle_alias hwired (resolve_globalShortUrl hid hmethod hpath) hlookup, hagrees, hs, ?_,
    fun hfirm => ShortUrl.same_of_agrees hfirm hagrees⟩
  rw [hs]
  cases w.database.find? fun record => record.2.agrees p with
  | none => simpa using ShortUrl.same_refl hnames
  | some record => simp

/-- The order of a request to create a short URL of the image. -/
def creation : Order := ⟨.shortUrls "christer".toList "abc".toList, .post, .createShortUrl⟩

/-- The answer to a posted query argument in a world. -/
def answerTo (d : Dispatcher) (value : String) (w : World Store) : Answer Store :=
  d.handle (.inMemory true) .standard laxKeys (posting value) w

/-- A text that is posted is served as it is. -/
theorem created_means_text :
    ∃ d, build .standard (some (some lax)) [] = .ok d ∧
      ∃ p s, Operation.posted (routed (posting "\"b\"") creation.target) = .ok p ∧
      (d.answerTo "\"b\"" vacant).world.database.lookup? "abcdefg".toList = some s ∧
      s.toJson.same p.toJson = true := by
  have hr : resolve (posting "\"b\"") = .ok creation := Except.eq_ok_of_toOption (by decide +kernel)
  obtain ⟨d, hd, htest⟩ : ∃ d, build .standard (some (some lax)) [] = .ok d ∧
      (decide ((d.answerTo "\"b\"" vacant).response.status = 201) &&
        (d.answerTo "\"b\"" vacant).response.model.any (idModel "abcdefg".toList).same) = true :=
    Except.exists_ok_of_any (by decide +kernel)
  obtain ⟨hstatus, hmodel⟩ := Bool.and_eq_true_iff.mp htest
  obtain ⟨j, hj, hsame⟩ := (Option.any_eq_true ..).mp hmodel
  rw [Operation.eq_idModel_of_same hsame] at hj
  obtain ⟨p, s, hposted, hlookup, -, -, -, hiff, -⟩ := created_means hd true rfl vacant_isRegular
    .start hr .standard laxKeys rfl (of_decide_eq_true hstatus) hj
  exact ⟨d, hd, p, s, hposted, hlookup, hiff.mpr nofun⟩

/-- If `1` was posted before, `true` is served as `1`. -/
theorem created_means_other :
    ∃ d, build .standard (some (some lax)) [] = .ok d ∧ ∃ w, Reachable d (.inMemory true) vacant w ∧
      resolve (posting "true") = .ok creation ∧
      (d.answerTo "true" w).response.status = 201 ∧
      (d.answerTo "true" w).response.model = some (idModel "abcdefg".toList) ∧
      ∃ p s, Operation.posted (routed (posting "true") creation.target) = .ok p ∧
        (d.answerTo "true" w).world.database.lookup? "abcdefg".toList = some s ∧
        s.toJson.same p.toJson = false := by
  have hr : resolve (posting "true") = .ok creation := Except.eq_ok_of_toOption (by decide +kernel)
  obtain ⟨d, hd, htest⟩ : ∃ d, build .standard (some (some lax)) [] = .ok d ∧
      (let w := (d.answerTo "1" vacant).world
      decide ((d.answerTo "true" w).response.status = 201) &&
        (d.answerTo "true" w).response.model.any (idModel "abcdefg".toList).same &&
        (Operation.posted (routed (posting "true") creation.target)).toOption.any fun p =>
          ((d.answerTo "true" w).world.database.lookup? "abcdefg".toList).any fun s =>
            !s.toJson.same p.toJson) = true :=
    Except.exists_ok_of_any (by decide +kernel)
  simp only [Bool.and_eq_true, decide_eq_true_eq] at htest
  obtain ⟨⟨hstatus, hmodel⟩, hother⟩ := htest
  obtain ⟨j, hj, hsame⟩ := (Option.any_eq_true ..).mp hmodel
  rw [Operation.eq_idModel_of_same hsame] at hj
  obtain ⟨p, hposted, hother⟩ := Except.exists_ok_of_any hother
  obtain ⟨s, hlookup, hother⟩ := (Option.any_eq_true ..).mp hother
  exact ⟨d, hd, _, .next .start .standard laxKeys (posting "1"), hr, hstatus, hj, p, s, hposted,
    hlookup, by simpa using hother⟩

end Dispatcher

end AliasGate
