import AliasGate.Proofs.Json.RoundTrip
import AliasGate.Proofs.ShortUrl.QueryText
import AliasGate.ShortUrl.Reader
import AliasGate.Storage.Backend

/-!
# Records that survive their texts

A short URL is written as a record and read again.

* `ShortUrl.ofMembers_eq_ok_iff`: a short URL is read field by field.
* `ShortUrl.ofJson_eq_plainAndArray_iff`: when a value is refused for the text of its query.
* `ShortUrl.ofJson_toJson`: nothing is lost on the way through a value.
* `ShortUrl.takes_toJson`: the value of a short URL keeps the limits of the dialect by which the short
  URL was read.
* `ShortUrl.IsPortable`: what a short URL must not hold so that nothing is lost on the way through a
  stored text either (`ShortUrl.survives_iff`).
* `ShortUrl.IsServable`: what it must not hold to have a text for clients (`exists_answer_iff`), from
  which its value is read (`read_answer`).
-/

namespace AliasGate

open Json (Dialect)
open WideText (ofText)

namespace Checked

variable {α β : Type}

theorem seq_eq_valid_iff {f : Checked (α → β)} {x : Checked α} {b : β} :
    f <*> x = .valid b ↔ ∃ g a, f = .valid g ∧ x = .valid a ∧ g a = b := by
  show apply f x = _ ↔ _
  cases f <;> cases x <;> simp [apply]

theorem map_eq_valid_iff {f : α → β} {x : Checked α} {b : β} :
    f <$> x = .valid b ↔ ∃ a, x = .valid a ∧ f a = b := by
  show apply (.valid f) x = _ ↔ _
  cases x <;> simp [apply]

end Checked

namespace ShortUrl

variable {s : ShortUrl} {members : Keyed WideText Json} {field : String} {found : Option Json}
  {j : Json}

/-! ## Fields -/

theorem checkName_eq_valid_iff {t : Text} :
    checkName field found = .valid t ↔ t ≠ [] ∧ found = some (.str (ofText t)) := by
  unfold checkName
  split
  · simp [Checked.refused]
  · next w =>
    rw [Option.some.injEq, Json.str.injEq, ← WideText.toText?_eq_some_iff]
    split
    · next hw => simp [Checked.refused, hw]
    · next hw => simp [Checked.refused, hw]
    · next hne hw =>
      rw [hw, Checked.valid.injEq, Option.some.injEq]
      exact ⟨fun h => ⟨fun hnil => hne (h.trans hnil), h⟩, And.right⟩
  · next hstr =>
    simp only [Checked.refused, reduceCtorEq, false_iff, not_and, Option.some.injEq]
    exact fun _ h => hstr _ h

/-- Once the query is read, the short URL is read if every other field is. -/
theorem ofMembers_of_query {query : Checked (Keyed WideText Json)}
    (hquery : checkQuery (field? members "query") = .ok query) :
    ofMembers members = .ok s ↔ mk <$> checkName "user" (field? members "user") <*>
      checkImage members <*> checkExtension (field? members "extension") <*> query = .valid s := by
  unfold ofMembers
  rw [hquery]
  dsimp only [bind, Except.bind]
  split
  · next h => rw [h, Except.ok.injEq, Checked.valid.injEq]
  · next h => simp [h]

/-- A short URL is read field by field. -/
theorem ofMembers_eq_ok_iff : ofMembers members = .ok s ↔
    checkName "user" (field? members "user") = .valid s.user ∧
    checkImage members = .valid s.image ∧
    checkExtension (field? members "extension") = .valid s.extension ∧
    checkQuery (field? members "query") = .ok (.valid s.query) := by
  rcases hquery : checkQuery (field? members "query") with refusal | query
  · have hrefused : ofMembers members = .error refusal := by
      unfold ofMembers
      rw [hquery]
      rfl
    exact ⟨fun h => (nomatch hrefused.symm.trans h), fun h => (nomatch h.2.2.2)⟩
  · rw [ofMembers_of_query hquery]
    simp only [Checked.seq_eq_valid_iff, Checked.map_eq_valid_iff, Except.ok.injEq]
    constructor
    · rintro ⟨_, q, ⟨_, e, ⟨_, i, ⟨u, hu, rfl⟩, hi, rfl⟩, he, rfl⟩, hq, rfl⟩
      exact ⟨hu, hi, he, hq⟩
    · rintro ⟨hu, hi, he, hq⟩
      exact ⟨_, _, ⟨_, _, ⟨_, _, ⟨_, hu, rfl⟩, hi, rfl⟩, he, rfl⟩, hq, rfl⟩

theorem checkQuery_eq_error_iff {refusal : Refusal} : checkQuery found = .error refusal ↔
    refusal = .plainAndArray ∧
      ∃ text, found = some (.str text) ∧ UsesBoth (Query.formWide (dropMarks text)) := by
  unfold checkQuery
  split
  · simp
  · simp
  next text =>
    cases hquery : ofQueryText? text with
    | none => simpa [← ofQueryText?_eq_none_iff, hquery] using eq_comm
    | some query => simp [← ofQueryText?_eq_none_iff, hquery]
  · simp
  next hstr _ => simpa using fun _ text htext => absurd htext (hstr text)

/-- A value is refused without issues only for the text of its query, whatever its other fields. -/
theorem ofJson_eq_plainAndArray_iff : ofJson j = .error .plainAndArray ↔
    ∃ members text, j = .obj members ∧ field? members "query" = some (.str text) ∧
      UsesBoth (Query.formWide (dropMarks text)) := by
  cases j with
  | obj members =>
    simp only [ofJson, Json.obj.injEq, exists_and_left, exists_eq_left']
    cases hquery : checkQuery (field? members "query") with
    | error refusal =>
      obtain ⟨rfl, htext⟩ := checkQuery_eq_error_iff.mp hquery
      have hrefused : ofMembers members = .error .plainAndArray := by
        unfold ofMembers
        rw [hquery]
        rfl
      exact iff_of_true hrefused htext
    | ok query =>
      refine iff_of_false (fun h => ?_) fun htext => ?_
      · unfold ofMembers at h
        rw [hquery] at h
        dsimp only [bind, Except.bind] at h
        split at h <;> cases h
      · rw [checkQuery_eq_error_iff.mpr ⟨rfl, htext⟩] at hquery
        cases hquery
  | _ => simp [ofJson]

/-- Nothing is lost on the way through a value. -/
theorem ofJson_toJson (huser : s.user ≠ []) (himage : s.image ≠ []) : ofJson s.toJson = .ok s := by
  show ofMembers [(ofText "user".toList, .text s.user), (ofText "imageIdentifier".toList, .text s.image),
    (ofText "extension".toList, s.extension.elim .null .str), (ofText "query".toList, .obj s.query)] = _
  refine ofMembers_eq_ok_iff.mpr ⟨?_, ?_, ?_, ?_⟩
  · exact checkName_eq_valid_iff.mpr ⟨huser, by simp [field?, Keyed.get?, Json.text]⟩
  · have hfound : ∀ members, field? members "imageIdentifier" = some (.text s.image) →
        checkImage members = .valid s.image := by
      intro members h
      simp only [checkImage, h]
      exact checkName_eq_valid_iff.mpr ⟨himage, rfl⟩
    exact hfound _ (by simp [field?, Keyed.get?, ofText])
  · have hfound : ∀ members, field? members "extension" = some (s.extension.elim .null .str) →
        checkExtension (field? members "extension") = .valid s.extension := by
      intro members h
      rw [h]
      cases s.extension <;> rfl
    exact hfound _ (by simp [field?, Keyed.get?, ofText])
  · have hfound : ∀ members, field? members "query" = some (.obj s.query) →
        checkQuery (field? members "query") = .ok (.valid s.query) := by
      intro members h
      rw [h]
      rfl
    exact hfound _ (by simp [field?, Keyed.get?, ofText])

/-! ## Limits -/

variable {d : Dialect}

/-- The fields that must not be empty are not, and the value of the short URL keeps the limits of a
dialect. -/
structure Accepted (d : Dialect) (s : ShortUrl) : Prop where
  user : s.user ≠ []
  image : s.image ≠ []
  takes : d.Takes 0 s.toJson

/-- The value of a field stands in the object. -/
theorem takes_field (h : d.Takes 0 (.obj members)) (hfield : field? members field = some j) :
    d.Takes 1 j :=
  (h.member _ (Keyed.mem_of_get? hfield)).2

theorem takes_extension (hnesting : 1 ≤ d.nesting) (h : ∀ j, found = some j → d.Takes 1 j)
    {extension : Option WideText} (hfound : checkExtension found = .valid extension) :
    d.Takes 1 (extension.elim .null .str) := by
  have hnull : d.Takes 1 .null := ⟨Json.all_null.mpr trivial, hnesting⟩
  unfold checkExtension at hfound
  split at hfound
  · cases hfound
    exact hnull
  · cases hfound
    exact hnull
  · cases hfound
    exact h _ rfl
  · cases hfound

theorem takes_query (hnesting : 3 ≤ d.nesting) (h : ∀ j, found = some j → d.Takes 1 j)
    {query : Keyed WideText Json} (hfound : checkQuery found = .ok (.valid query)) :
    d.Takes 1 (.obj query) := by
  have hcounts := d.countsEmpty.toNat_le
  have hempty : d.Takes 1 (.obj []) :=
    Dialect.takes_obj (by omega) List.nodup_nil fun m hm => absurd hm List.not_mem_nil
  unfold checkQuery at hfound
  split at hfound
  · cases hfound
    exact hempty
  · cases hfound
    exact hempty
  · next w =>
    split at hfound
    · next hquery =>
      cases hfound
      exact takes_ofQueryText? hnesting (Json.all_str.mp (h _ rfl).parts) hquery
    · cases hfound
  · cases hfound
    exact h _ rfl
  · cases hfound

/-- A short URL keeps the limits of the dialect that it was read by. -/
theorem accepted_of_ofJson (hnesting : 3 ≤ d.nesting) (hj : d.Takes 0 j) (h : ofJson j = .ok s) :
    s.Accepted d := by
  cases j with
  | obj members =>
    obtain ⟨huser, himage, hextension, hquery⟩ := ofMembers_eq_ok_iff.mp h
    have himage : s.image ≠ [] := by
      unfold checkImage at himage
      split at himage
      · exact (checkName_eq_valid_iff.mp himage).1
      · exact (checkName_eq_valid_iff.mp himage).1
    have hfield : ∀ name j, field? members name = some j → d.Takes 1 j := fun _ _ => takes_field hj
    have htext : ∀ t : Text, d.Takes 1 (.text t) := fun t =>
      ⟨Json.all_str.mpr (.inr (WideText.isText_ofText t)), by show 1 + 0 ≤ d.nesting; omega⟩
    refine ⟨(checkName_eq_valid_iff.mp huser).1, himage, ?_⟩
    have hcounts := d.countsEmpty.toNat_le
    refine Dialect.takes_obj (by omega) ?_ ?_
    · simp [Keyed.keys, ofText]
    · simp only [List.map_cons, List.map_nil, List.forall_mem_cons, List.not_mem_nil, false_implies,
        implies_true, and_true]
      have hname : ∀ name : Text, d.Allows (ofText name) := fun name =>
        .inr (WideText.isText_ofText name)
      exact ⟨⟨hname _, htext _⟩, ⟨hname _, htext _⟩,
        ⟨hname _, takes_extension (by omega) (hfield "extension") hextension⟩,
        hname _, takes_query hnesting (hfield "query") hquery⟩
  | _ => cases h

/-- A request may hold the short URL, given enough room for reading it. -/
def Receivable (s : ShortUrl) : Prop := ∃ room, s.Accepted (.received room)

/-- Whatever was read from a request may be held by one. Where the query was given as text, the value
of the short URL takes up to three levels, for which there may have been no room. -/
theorem receivable_of_ofJson {room : Nat} (hj : (Dialect.received room).Takes 0 j)
    (h : ofJson j = .ok s) : s.Receivable :=
  ⟨max 3 room, accepted_of_ofJson (Nat.le_max_left 3 room)
    ⟨hj.parts, Nat.le_trans hj.nesting (Nat.le_max_right 3 room)⟩ h⟩

/-- No more room is needed than the value takes. -/
theorem Receivable.accepted (h : s.Receivable) {room : Nat} (hroom : s.toJson.height ≤ room) :
    s.Accepted (.received room) := by
  obtain ⟨_, h⟩ := h
  exact ⟨h.user, h.image, h.takes.parts, (Nat.zero_add _).trans_le hroom⟩

/-! ## Stored texts -/

/-- A stored text loses nothing of the short URL: it holds texts and finite numbers only, and its
value nests no deeper than stored texts are read. -/
structure IsPortable (s : ShortUrl) : Prop where
  text : s.toJson.All Json.HasText
  finite : s.toJson.All Json.IsFinite
  nesting : s.toJson.depth ≤ Dialect.stored.nesting

theorem all_query {P : Json → Prop} (h : s.toJson.All P) : (Json.obj s.query).All P :=
  (Json.all_obj.mp h).2 (ofText "query".toList, .obj s.query) (by simp)

/-- A row can be written if all strings are texts. -/
theorem isEncodable_of_text (h : s.toJson.All Json.HasText) :
    Storage.Connection.isEncodable s = true := by
  have hextension := (Json.all_obj.mp h).2
    (ofText "extension".toList, s.extension.elim .null .str) (by simp)
  unfold Storage.Connection.isEncodable
  cases hs : s.extension with
  | none => rfl
  | some w =>
    rw [hs] at hextension
    exact Json.all_str.mp hextension

instance (s : ShortUrl) : Decidable s.IsPortable :=
  decidable_of_iff (s.toJson.All Json.HasText ∧ s.toJson.All Json.IsFinite ∧
    s.toJson.depth ≤ Dialect.stored.nesting)
    ⟨fun ⟨htext, hfinite, hnesting⟩ => ⟨htext, hfinite, hnesting⟩,
      fun h => ⟨h.text, h.finite, h.nesting⟩⟩

/-- Whole numbers of any size are portable, and what is not a number is not. -/
example : IsPortable ⟨"u".toList, "i".toList, none, [(ofText "a".toList, .int (-10 ^ 40))]⟩ ∧
    ¬IsPortable ⟨"u".toList, "i".toList, none, [(ofText "a".toList, .arr [.number .nan])]⟩ := by
  decide

/-- The names of query arguments are texts if all strings are. -/
theorem withTextNames_eq_self (h : s.toJson.All Json.HasText) : s.withTextNames = s := by
  have hmap : (s.query.map fun m => (ofText (WideText.toTextLossy m.1), m.2)) = s.query :=
    Json.map_eq_self_iff.mpr fun m hm =>
      Prod.ext (WideText.ofText_toTextLossy ((Json.all_obj.mp (all_query h)).1 m hm)) rfl
  unfold withTextNames
  rw [hmap]

/-- No name stands twice in the query or in any object inside it. -/
def HasNames (s : ShortUrl) : Prop := (Json.obj s.query).All Json.HasNames

theorem Accepted.hasNames (h : s.Accepted d) : s.HasNames := by
  have hnames : s.toJson.All Json.HasNames := h.takes.parts.mono fun x hx => by
    cases x with
    | obj ms => exact hx.1
    | _ => trivial
  exact all_query hnames

theorem Receivable.user (h : s.Receivable) : s.user ≠ [] := (h.accepted (Nat.le_refl _)).user

theorem Receivable.image (h : s.Receivable) : s.image ≠ [] := (h.accepted (Nat.le_refl _)).image

theorem Receivable.hasNames (h : s.Receivable) : s.HasNames :=
  (h.accepted (Nat.le_refl _)).hasNames

/-- There are no surrogates to join if all strings are texts. -/
theorem joinPairs_eq_self (hs : s.Receivable) (h : s.toJson.All Json.HasText) :
    s.joinPairs = s := by
  have hquery := Json.joinPairs_eq_self (all_query h) hs.hasNames
  unfold joinPairs
  rw [Json.obj.inj hquery]

/-- The same target with `null` in place of numbers in its query that are not finite. -/
def nullNonFinite (s : ShortUrl) : ShortUrl :=
  { s with query := Json.nullNonFiniteMembers s.query }

theorem toJson_nullNonFinite (s : ShortUrl) : s.nullNonFinite.toJson = s.toJson.nullNonFinite := by
  obtain ⟨user, image, extension, query⟩ := s
  cases extension <;> rfl

/-- A short URL is the same without its numbers that are not finite exactly if it has none. -/
theorem nullNonFinite_eq_self_iff (huser : s.user ≠ []) (himage : s.image ≠ []) :
    s.nullNonFinite = s ↔ s.toJson.All Json.IsFinite := by
  rw [← Json.nullNonFinite_eq_self_iff, ← toJson_nullNonFinite]
  refine ⟨fun h => by rw [h], fun h => Except.ok.inj (ε := Refusal) ?_⟩
  calc .ok s.nullNonFinite
      = ofJson s.nullNonFinite.toJson := (ofJson_toJson (s := s.nullNonFinite) huser himage).symm
    _ = ofJson s.toJson := by rw [h]
    _ = .ok s := ofJson_toJson huser himage

theorem reads_stored : Dialect.stored.Reads .stored where
  fits := ⟨by decide, by decide⟩
  nonFinite t ht := (Option.some.inj ht).symm

/-- Reading by the dialect of stored texts gives texts only. -/
theorem hasText_of_takes {level : Nat} (h : Dialect.stored.Takes level j) : j.All Json.HasText := by
  refine h.parts.mono fun x hx => ?_
  have hallows : ∀ {w : WideText}, Dialect.stored.Allows w → WideText.isText w = true :=
    fun hw => hw.resolve_left Bool.false_ne_true
  cases x with
  | str w => exact hallows hx
  | obj ms => exact fun m hm => hallows (hx.2 m hm)
  | _ => trivial

/-- What requests may hold, stored texts may hold if it holds texts only and nests no deeper than they
are read. -/
theorem Receivable.stored (h : s.Receivable) (htext : s.toJson.All Json.HasText)
    (hnesting : s.toJson.depth ≤ Dialect.stored.nesting) : s.Accepted .stored := by
  obtain ⟨_, h⟩ := h
  refine ⟨h.user, h.image, fun x hx => ?_, (Nat.zero_add _).trans_le hnesting⟩
  have htext := htext x hx
  have hgives := h.takes.parts x hx
  cases x with
  | int n => exact hgives
  | str w => exact .inr htext
  | obj ms => exact ⟨hgives.1, fun m hm => .inr (htext m hm)⟩
  | _ => trivial

theorem Accepted.depth_le (h : s.Accepted .stored) :
    s.toJson.depth ≤ Dialect.stored.nesting := (Nat.zero_add _).symm.trans_le h.takes.nesting

theorem exists_written (h : s.Accepted .stored) : ∃ t, s.written = .ok t := by
  have htext := hasText_of_takes h.takes
  obtain ⟨t, ht⟩ := Json.exists_writeWide (f := .stored) htext (.inl (by simp [Json.Format.stored]))
  refine ⟨t, ?_⟩
  rw [written, withTextNames_eq_self htext, Json.write_eq_ok_iff]
  refine ⟨fun limit hlimit => ?_, ht⟩
  obtain rfl := Option.some.inj hlimit
  exact Nat.le_trans h.depth_le (by decide : Dialect.stored.nesting ≤ 256)

/-- The stored text of a short URL that holds texts only is read as the short URL without its numbers
that are not finite. -/
theorem ofStored_written (h : s.Accepted .stored) {t : Text} (ht : s.written = .ok t) :
    ofStored (ofText t) = .ok s.nullNonFinite := by
  have hnames := withTextNames_eq_self (hasText_of_takes h.takes)
  rw [written, hnames] at ht
  have hread := Json.read_write reads_stored h.takes (Json.write_eq_ok_iff.mp ht).2
  rw [← toJson_nullNonFinite] at hread
  unfold ofStored
  rw [hread]
  exact ofJson_toJson h.user h.image

/-- **What survives a stored text.** A short URL that a request may hold has a stored text from which
it is read as it was exactly if it is portable. -/
theorem survives_iff (h : s.Receivable) :
    (∃ t, s.written = .ok t ∧ ofStored (ofText t) = .ok s) ↔ s.IsPortable := by
  constructor
  · -- whatever was read keeps the limits of stored texts; then the round trip tells what was lost
    rintro ⟨t, ht, hs⟩
    obtain ⟨j, hj, hjs⟩ : ∃ j, Json.read .stored (ofText t) = .ok j ∧ ofJson j = .ok s := by
      unfold ofStored at hs
      split at hs
      · next j hj => exact ⟨j, hj, hs⟩
      · cases hs
    have hstored := accepted_of_ofJson (by decide) (Json.takes_of_read hj) hjs
    have hsame : s.nullNonFinite = s :=
      Except.ok.inj ((ofStored_written hstored ht).symm.trans hs)
    exact ⟨hasText_of_takes hstored.takes,
      (nullNonFinite_eq_self_iff hstored.user hstored.image).mp hsame, hstored.depth_le⟩
  · intro hs
    have hstored := h.stored hs.text hs.nesting
    obtain ⟨t, ht⟩ := exists_written hstored
    refine ⟨t, ht, ?_⟩
    rw [ofStored_written hstored ht,
      (nullNonFinite_eq_self_iff hstored.user hstored.image).mpr hs.finite]

/-! ## Texts for clients -/

/-- All numbers are finite, and all strings are texts. -/
def IsServable (s : ShortUrl) : Prop := s.toJson.All Json.IsFinite ∧ s.toJson.All Json.HasText

instance (s : ShortUrl) : Decidable s.IsServable :=
  inferInstanceAs (Decidable (s.toJson.All Json.IsFinite ∧ s.toJson.All Json.HasText))

/-- Servable are the short URLs that have a text. -/
theorem exists_answer_iff : (∃ t, Json.write .answer s.toJson = .ok t) ↔ s.IsServable :=
  Json.exists_write_iff rfl rfl

theorem reads_answer (room : Nat) : (Json.Dialect.received room).Reads .answer where
  fits := by
    dsimp only [Dialect.Fits, Dialect.received]
    decide
  nonFinite _ ht := nomatch ht

/-- Whoever reads the text, with room for the value, reads the value that was written. -/
theorem read_answer {t : Text} (hs : s.Receivable) (ht : Json.write .answer s.toJson = .ok t)
    {room : Nat} (hroom : s.toJson.height ≤ room) :
    Json.read (.received room) (ofText t) = .ok s.toJson := by
  obtain ⟨hfinite, -⟩ := exists_answer_iff.mp ⟨t, ht⟩
  have hread :=
    Json.read_write (reads_answer room) (hs.accepted hroom).takes (Json.write_eq_ok_iff.mp ht).2
  rwa [Json.nullNonFinite_eq_self_iff.mpr hfinite] at hread

end ShortUrl

end AliasGate
