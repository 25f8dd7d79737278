import AliasGate.Proofs.Dispatch.Isolation
import AliasGate.Proofs.Dispatch.Resemblance

/-!
# Requests for heads

A request for the head of something is a request for that thing with the value of the answer left
out: the two publish events of different names, but nobody who listens to the one stays away from the
other.

* `Dispatcher.resolve_head`: what a head is asked of, and which operation that is.
* `Dispatcher.handle_head`, `Dispatcher.answerOf_head`: both requests end alike, and what is shown of
  such endings.
* `Dispatcher.head_mirrors_get`: the answer to one compared with the answer to the other.
-/

namespace AliasGate

/-- For a head, the operation that fetches is done. -/
theorem Resource.operation?_head (t : Resource) : t.operation? .head = t.operation? .get := by
  cases t <;> rfl

/-- Everything but all short URLs of an image can be fetched. -/
theorem Resource.exists_operation?_get {t : Resource} (ht : t ≠ .shortUrls) :
    ∃ op, t.operation? .get = some op := by
  cases t with
  | shortUrls => exact absurd rfl ht
  | _ => exact ⟨_, rfl⟩

namespace Dispatcher

section
variable {get head : Text}

/-- Unless the path leads to all short URLs of an image, both requests ask for the same operation, or
neither asks for anything. -/
theorem resolve_head (r : Http.Request) (hget : get.upper = Http.Method.get.name)
    (hhead : head.upper = Http.Method.head.name)
    (hpath : ∀ u i, Target.ofPath? (Percent.decode r.path) ≠ some (.shortUrls u i)) :
    (resolve { r with method := get } = .error .invalidRoute ∧
      resolve { r with method := head } = .error .invalidRoute) ∨
    ∃ t op, resolve { r with method := get } = .ok ⟨t, .get, op⟩ ∧
      resolve { r with method := head } = .ok ⟨t, .head, op⟩ := by
  cases ht : Target.ofPath? (Percent.decode r.path) with
  | none =>
    have hgetBrew : get.upper ≠ Http.Method.brew.name := by rw [hget]; decide
    have hheadBrew : head.upper ≠ Http.Method.brew.name := by rw [hhead]; decide
    exact .inl ⟨resolve_of_nowhere hgetBrew ht, resolve_of_nowhere hheadBrew ht⟩
  | some t =>
    have hresource : t.resource ≠ .shortUrls := by
      intro h
      cases t with
      | shortUrls u i => exact hpath u i ht
      | _ => cases h
    obtain ⟨op, hop⟩ := Resource.exists_operation?_get hresource
    have hop' := (Resource.operation?_head t.resource).trans hop
    exact .inr ⟨t, op, resolve_of_verb hget (by decide) ht hop,
      resolve_of_verb hhead (by decide) ht hop'⟩

end

section
variable {δ : Type} {get head : Text}

/-- Unless the path leads to all short URLs of an image, both requests end alike, refused ones too. -/
theorem handle_head {settings : Settings} {s : Signer} {d : Dispatcher} (hd : Wired d s settings [])
    (db : Database δ) (config : Settings) (keys : AccessKeys) (r : Http.Request) (w : World δ)
    (hget : get.upper = Http.Method.get.name) (hhead : head.upper = Http.Method.head.name)
    (hpath : ∀ u i, Target.ofPath? (Percent.decode r.path) ≠ some (.shortUrls u i)) :
    ∃ x y : Except Fault Unit × Stage δ, x.1 = y.1 ∧ x.2.Resembles y.2 ∧
      ((d.process db config keys { r with method := get }).perform ⟨w, Exchange.initial⟩).1 = x.1 ∧
      d.handle db config keys { r with method := get } w = answerOf .get x ∧
      d.handle db config keys { r with method := head } w = answerOf .head y := by
  rcases resolve_head r hget hhead hpath with ⟨hr, hr'⟩ | ⟨t, op, hr, hr'⟩
  · have hending : ((d.process db config keys { r with method := get }).perform
        ⟨w, Exchange.initial⟩).1 = .error (.failure .invalidRoute) := by
      simp only [process, hr, Action.perform_bind, Action.perform_ofExcept_error,
        Action.andThen_error]
    exact ⟨⟨.error (.failure .invalidRoute), w, Exchange.initial⟩, _, rfl, ⟨rfl, rfl⟩, hending,
      handle_of_refused hr, handle_of_refused hr'⟩
  · have hresembles : Http.Request.Resembles { r with method := get } { r with method := head } :=
      ⟨rfl, rfl, rfl, rfl, rfl, rfl, rfl, rfl⟩
    exact handle_resembling hd hr hr' rfl rfl hresembles db config keys w

/-- Of endings that are alike, the head shows what the other request shows, without the value. -/
theorem answerOf_head {x y : Except Fault Unit × Stage δ} (hxy : x.1 = y.1)
    (h : x.2.Resembles y.2) :
    (answerOf .head y).response.status = (answerOf .get x).response.status ∧
    (answerOf .head y).response.headers = (answerOf .get x).response.headers ∧
    (x.1 = .ok () → (answerOf .head y).response.model = none) ∧
    ∀ fault, x.1 = .error fault → (answerOf .head y).response = (answerOf .get x).response ∧
      (answerOf .get x).response.model = some (Http.Response.errorModel fault.told) := by
  obtain ⟨x, s⟩ := x
  obtain ⟨y, t⟩ := y
  obtain rfl : x = y := hxy
  cases x with
  | error fault =>
    refine ⟨rfl, rfl, fun hok => ?_, fun fault' hfault => ?_⟩
    · cases hok
    · cases hfault
      exact ⟨rfl, rfl⟩
  | ok =>
    have hstatus : t.response.status = s.response.status :=
      congrArg Http.Response.status h.response.symm
    have hheaders : t.response.headers = s.response.headers :=
      congrArg Http.Response.headers h.response.symm
    refine ⟨hstatus, hheaders, fun _ => rfl, fun fault hfault => ?_⟩
    cases hfault

end

/-- **Heads mirror gets.** Without hooks and outside of `.shortUrls`, both are answered with the
same status and headers and leave the same world. The head has no value if the get succeeds, and the
error model if the get fails. -/
theorem head_mirrors_get {settings : Settings} {offered : Option (Option Signer)} {d : Dispatcher}
    (hd : build settings offered [] = .ok d) {δ : Type} (db : Database δ) (config : Settings)
    (keys : AccessKeys) (r : Http.Request) (w : World δ) {get head : Text}
    (hget : get.upper = Http.Method.get.name) (hhead : head.upper = Http.Method.head.name)
    (hpath : ∀ u i, Target.ofPath? (Percent.decode r.path) ≠ some (.shortUrls u i)) :
    let got := d.handle db config keys { r with method := get } w
    let answer := d.handle db config keys { r with method := head } w
    let ending := ((d.process db config keys { r with method := get }).perform
      ⟨w, Exchange.initial⟩).1
    answer.response.status = got.response.status ∧
    answer.response.headers = got.response.headers ∧
    answer.world = got.world ∧
    (ending = .ok () → answer.response.model = none) ∧
    ∀ fault, ending = .error fault → answer.response = got.response ∧
      got.response.model = some (Http.Response.errorModel fault.told) := by
  obtain ⟨s, -, hwired⟩ := build_ok hd
  intro got answer ending
  obtain ⟨x, y, hxy, hstage, hending, hgot, hanswer⟩ :=
    handle_head hwired db config keys r w hget hhead hpath
  obtain ⟨hstatus, hheaders, hok, herror⟩ := answerOf_head hxy hstage
  have hworld : (answerOf .head y).world = (answerOf .get x).world :=
    (answerOf_world hxy hstage .get .head).symm
  have hgot : got = answerOf .get x := hgot
  have hanswer : answer = answerOf .head y := hanswer
  have hending : ending = x.1 := hending
  rw [hgot, hanswer, hending]
  exact ⟨hstatus, hheaders, hworld, hok, herror⟩

/-- A world in which the short URL of that inquiry is stored. -/
def stocked : World Store :=
  ⟨[("aaaaaaa".toList, ⟨"christer".toList, "abc".toList, none, []⟩)], .ofScript [], .zero⟩

/-- Who may fetch a short URL may ask for its head, in lower case too. -/
theorem head_mirrors_get_stocked :
    ∃ d, build .standard (some (some lax)) [] = .ok d ∧
      Text.upper "GET".toList = Http.Method.get.name ∧ Text.upper "head".toList = Http.Method.head.name ∧
      (∀ u i, Target.ofPath? (Percent.decode inquiry.path) ≠ some (.shortUrls u i)) ∧
      let answer := d.handle (.inMemory true) .standard laxKeys
        { inquiry with method := "head".toList } stocked
      answer.response.status = 200 ∧ answer.response.model = none ∧
        answer.world.metrics = ⟨[.verified], []⟩ := by
  obtain ⟨d, hd, htest⟩ : ∃ d, build .standard (some (some lax)) [] = .ok d ∧
      (let got := d.handle (.inMemory true) .standard laxKeys inquiry stocked
      decide (got.response.status = 200) && decide (got.world.metrics = ⟨[.verified], []⟩) &&
        ((d.process (.inMemory true) .standard laxKeys inquiry).perform
          ⟨stocked, Exchange.initial⟩).1.toOption.isSome) = true :=
    Except.exists_ok_of_any (by decide +kernel)
  simp only [Bool.and_eq_true, decide_eq_true_eq] at htest
  obtain ⟨⟨hstatus, hmetrics⟩, hsome⟩ := htest
  have ht : Target.ofPath? (Percent.decode inquiry.path) =
      some (.shortUrl "christer".toList "abc".toList "aaaaaaa".toList) := by decide +kernel
  have hget : Text.upper "GET".toList = Http.Method.get.name := by decide +kernel
  have hhead : Text.upper "head".toList = Http.Method.head.name := by decide +kernel
  have hpath : ∀ u i, Target.ofPath? (Percent.decode inquiry.path) ≠ some (.shortUrls u i) := by
    rw [ht]
    nofun
  obtain ⟨hsame, -, hworld, hnone, -⟩ :=
    head_mirrors_get hd (.inMemory true) .standard laxKeys inquiry stocked hget hhead hpath
  obtain ⟨⟨⟩, hok⟩ := Option.isSome_iff_exists.mp hsome
  exact ⟨d, hd, hget, hhead, hpath, hsame.trans hstatus, hnone (Except.eq_ok_of_toOption hok),
    (congrArg World.metrics hworld).trans hmetrics⟩

end Dispatcher

end AliasGate
