import AliasGate.Proofs.Dispatch.Replies
import AliasGate.Proofs.ShortUrl.Gathering

/-!
# Posting a query as text or as object

Whoever posts a short URL may give its query as an object or as a text that gives this object. Nobody
can tell the difference.

* `Http.Request.json_of_written`: a body that is a written value is read as that value.
* `ShortUrl.Restated`: two objects that differ in the notation of the query only.
* `ShortUrl.ofJson_restated`: they are the same short URL.
* `Dispatcher.handle_of_posted`: a request that posts the same is answered the same.
* `Dispatcher.handle_restated`: both for queries that were written as texts.
-/

namespace AliasGate

/-- A body that is the text of a value has that value. -/
theorem Http.Request.json_of_written {r : Http.Request} {j : Json}
    (hbody : Json.decode? r.body = Json.writeWide .answer j)
    (htext : (Json.writeWide .answer j).isSome) (htaken : (Json.Dialect.received r.room).Takes 0 j) :
    r.json = .ok j.nullNonFinite := by
  obtain ⟨s, hs⟩ := Option.isSome_iff_exists.mp htext
  have hread := Json.read_write (ShortUrl.reads_answer r.room) htaken hs
  rw [hs] at hbody
  unfold Http.Request.json
  split
  next hnil =>
    rw [hnil] at hbody
    obtain rfl : [] = s := Option.some.inj hbody
    cases hread
  next => simp only [Json.readDocument, hbody, hread]

namespace ShortUrl

variable {s : WideText} {query members members' : Keyed WideText Json}

/-- The query of the first object is the text, that of the second is the object, and what else they
say is the same. -/
structure Restated (s : WideText) (query members members' : Keyed WideText Json) : Prop where
  text : field? members "query" = some (.str s)
  object : field? members' "query" = some (.obj query)
  others : ∀ name, name ≠ "query" → field? members name = field? members' name

theorem ofJson_restated (hs : ofQueryText? s = some query) (h : Restated s query members members') :
    ofJson (.obj members) = ofJson (.obj members') := by
  simp only [ofJson, ofMembers, checkImage, checkQuery, h.text, h.object, hs,
    h.others "user" (by decide), h.others "imageIdentifier" (by decide),
    h.others "image_identifier" (by decide), h.others "extension" (by decide)]

end ShortUrl

theorem Operation.perform_createShortUrl_congr {r r' : Http.Request} (h : posted r = posted r')
    {δ : Type} (db : Database δ) (idLength : Int) :
    createShortUrl.perform db idLength r = createShortUrl.perform db idLength r' := by
  simp only [perform, h]

namespace Dispatcher

variable {settings : Settings} {d : Dispatcher} {r : Http.Request} {body : Bytes} {room : Nat}
  {u i : Text}

/-- The body of a request that creates a short URL matters by what it posts. -/
theorem handle_of_posted {s : Signer} (hd : Wired d s settings [])
    (hr : resolve r = .ok (creating u i))
    (h : Operation.posted (routed { r with body := body, room := room } (.shortUrls u i)) =
      Operation.posted (routed r (.shortUrls u i)))
    {δ : Type} (db : Database δ) (config : Settings) (keys : AccessKeys) (w : World δ) :
    d.handle db config keys { r with body := body, room := room } w =
      d.handle db config keys r w := by
  have hr' : resolve { r with body := body, room := room } = .ok (creating u i) := hr
  have hexecute : d.execute db (creating u i)
      (event (creating u i) { r with body := body, room := room } config keys) =
        d.execute db (creating u i) (event (creating u i) r config keys) :=
    congrArg (fun a => Stage.onExchange (Exchange.note (.operation .createShortUrl)) >>= fun _ => a)
      (Operation.perform_createShortUrl_congr h db d.idLength)
  rw [handle_guarded hd hr nofun nofun, handle_guarded hd hr' nofun nofun, hexecute]
  rfl

open ShortUrl in
/-- **Query texts and query objects.** A text written from a mapping (`Interleaves`, `Part.Writes`)
is read as the `objectOf` the mapping. Objects that differ in this notation only (`Restated`) are
the same short URL, and posting either, or one after the other, is answered alike. -/
theorem handle_restated {m : Mapping} {parts : List Part} {fs : List Text} {text : Text}
    {marks : Nat} (hnodup : m.keys.Nodup) (hm : ∀ entry ∈ m, IsWritable entry.1 entry.2)
    (hparts : Interleaves m parts) (hfs : List.Forall₂ Part.Writes parts fs)
    (htext : text = List.replicate marks '?' ++ Text.joined ['&'] fs) :
    ofQueryText? (WideText.ofText text) = some (objectOf m) ∧
    ∀ members members', Restated (WideText.ofText text) (objectOf m) members members' →
      ofJson (.obj members) = ofJson (.obj members') ∧
      ∀ (settings : Settings) (offered : Option (Option Signer)) (d : Dispatcher),
        build settings offered [] = .ok d → ∀ (config : Settings) (keys : AccessKeys)
          (r r' : Http.Request) (u i : Text), resolve r = .ok (creating u i) →
          r' = { r with body := r'.body, room := r'.room } →
          (r.json = .ok (.obj members) ∧ r'.json = .ok (.obj members') ∨
            r.json = .ok (.obj members') ∧ r'.json = .ok (.obj members)) →
          (∀ (δ : Type) (db : Database δ) (w : World δ),
            d.handle db config keys r' w = d.handle db config keys r w) ∧
          ∀ (healthy : Bool) (w : World Store) (first again : Answer Store),
            first = d.handle (.inMemory healthy) config keys r w → first.response.status = 201 →
            again = d.handle (.inMemory healthy) config keys r' first.world →
            again.response = first.response ∧ again.world.database = first.world.database := by
  have hgives : ofQueryText? (WideText.ofText text) = some (objectOf m) :=
    htext ▸ ofQueryText?_written hnodup hm hparts hfs marks
  refine ⟨hgives, fun members members' hrestated => ?_⟩
  have hsame := ofJson_restated hgives hrestated
  refine ⟨hsame, fun settings offered d hd config keys r r' u i hr hr' hjson => ?_⟩
  obtain ⟨s, -, hwired⟩ := build_ok hd
  have hposted :
      Operation.posted (routed { r with body := r'.body, room := r'.room } (.shortUrls u i)) =
        Operation.posted (routed r (.shortUrls u i)) := by
    have hroute : ∀ q : Http.Request, (routed q (.shortUrls u i)).json = q.json := fun _ => rfl
    have hbody : ({ r with body := r'.body, room := r'.room } : Http.Request).json = r'.json := rfl
    unfold Operation.posted
    rw [hroute, hroute, hbody]
    rcases hjson with ⟨hleft, hright⟩ | ⟨hleft, hright⟩
    · simp only [hleft, hright, hsame]
      rfl
    · simp only [hleft, hright, hsame]
      rfl
  have halike : ∀ (δ : Type) (db : Database δ) (w : World δ),
      d.handle db config keys r' w = d.handle db config keys r w := fun δ db w => by
    rw [hr']
    exact handle_of_posted hwired hr hposted db config keys w
  refine ⟨halike, ?_⟩
  rintro healthy w first again rfl hstatus rfl
  rw [halike]
  exact (handle_again_createShortUrl hwired hr healthy config keys w hstatus).symm

open ShortUrl in
/-- A list, a name with an opening bracket, and an empty name. -/
def mixed : Mapping := [("t".toList, .several "border".toList ["crop:x=1".toList]),
  ("a[".toList, .single "1&?".toList), ("".toList, .single "é".toList)]

open ShortUrl in
/-- Its arguments, with another one between the elements of the list. -/
def mixedParts : List Part := [⟨"t".toList, some "".toList, "border".toList⟩,
  ⟨"a[".toList, none, "1&?".toList⟩, ⟨"t".toList, some "7".toList, "crop:x=1".toList⟩,
  ⟨"".toList, none, "é".toList⟩]

/-- Its text. -/
def mixedText : Text :=
  List.replicate 2 '?' ++ Text.joined ['&']
    (mixedParts.map fun p => Percent.encode p.key ++ '=' :: Percent.encode p.value)

/-- What is posted with a query. -/
def bodyMembers (query : Json) : Keyed WideText Json :=
  [(WideText.ofText "user".toList, .text "christer".toList),
    (WideText.ofText "imageIdentifier".toList, .text "abc".toList),
    (WideText.ofText "query".toList, query)]

/-- The object is posted after the text. -/
theorem handle_restated_mixed :
    ∃ d, build exempting none [] = .ok d ∧ ∃ first again,
      first = d.handle (.inMemory true) .standard []
        (exempted ("\"" ++ String.ofList mixedText ++ "\"")) vacant ∧
      again = d.handle (.inMemory true) .standard []
        (exempted "\x7b\"t\":[\"border\",\"crop:x=1\"],\"a[\":\"1&?\",\"\":\"é\"\x7d")
        first.world ∧
      first.response.status = 201 ∧ again.response = first.response ∧
      again.world.database = first.world.database := by
  have hfs : List.Forall₂ ShortUrl.Part.Writes mixedParts
      (mixedParts.map fun p => Percent.encode p.key ++ '=' :: Percent.encode p.value) := by
    rw [List.forall₂_map_right_iff, List.forall₂_same]
    exact fun p _ => p.writes_encode
  have htext : mixedText = List.replicate 2 '?' ++ Text.joined ['&']
      (mixedParts.map fun p => Percent.encode p.key ++ '=' :: Percent.encode p.value) := rfl
  have hwritten : (exempted ("\"" ++ String.ofList mixedText ++ "\"")).json =
      .ok (.obj (bodyMembers (.text mixedText))) :=
    Http.Request.json_of_written (j := .obj (bodyMembers (.text mixedText)))
      (by decide +kernel) (by decide +kernel) (by decide +kernel)
  have hobject : (exempted
      "\x7b\"t\":[\"border\",\"crop:x=1\"],\"a[\":\"1&?\",\"\":\"é\"\x7d").json =
      .ok (.obj (bodyMembers (.obj (ShortUrl.objectOf mixed)))) :=
    Http.Request.json_of_written (j := .obj (bodyMembers (.obj (ShortUrl.objectOf mixed))))
      (by decide +kernel) (by decide +kernel) (by decide +kernel)
  have hrestated : ShortUrl.Restated (WideText.ofText mixedText) (ShortUrl.objectOf mixed)
      (bodyMembers (.text mixedText)) (bodyMembers (.obj (ShortUrl.objectOf mixed))) := by
    refine ⟨rfl, rfl, fun name hname => ?_⟩
    have hquery : WideText.ofText "query".toList ≠ WideText.ofText name.toList := fun h =>
      hname (String.toList_inj.mp (WideText.ofText_inj.mp h)).symm
    simp only [ShortUrl.field?, bodyMembers, Keyed.get?, if_neg hquery]
  obtain ⟨d, hd, hstatus⟩ : ∃ d, build exempting none [] = .ok d ∧
      decide ((d.handle (.inMemory true) .standard []
        (exempted ("\"" ++ String.ofList mixedText ++ "\"")) vacant).response.status = 201) = true :=
    Except.exists_ok_of_any (by decide +kernel)
  have hr : resolve (exempted ("\"" ++ String.ofList mixedText ++ "\"")) =
      .ok (creating "christer".toList "abc".toList) := Except.eq_ok_of_toOption (by decide +kernel)
  obtain ⟨-, hposts⟩ := handle_restated (m := mixed) (by decide) (by decide)
    ⟨by decide, by decide⟩ hfs htext
  obtain ⟨-, hanswers⟩ := hposts _ _ hrestated
  obtain ⟨-, hagain⟩ := hanswers exempting none d hd .standard [] _ _ _ _ hr rfl
    (.inl ⟨hwritten, hobject⟩)
  exact ⟨d, hd, _, _, rfl, rfl, of_decide_eq_true hstatus,
    hagain true vacant _ _ rfl (of_decide_eq_true hstatus) rfl⟩

end Dispatcher

end AliasGate
