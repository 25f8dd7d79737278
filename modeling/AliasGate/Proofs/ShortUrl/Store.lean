import AliasGate.Proofs.Json.Agreement
import AliasGate.Proofs.ShortUrl.Records
import AliasGate.Route
import AliasGate.ShortUrl.Basic

/-!
# Laws of the store

What a store finds, and what holds of a store that has grown by allocation.

* `ShortUrl.agrees_iff`, `ShortUrl.same_toJson_iff`: short URLs are compared field by field.
* `Store.idOf?_eq_none_iff`, `Store.idOf?_eq_some_iff`: the first agreeing short URL.
* `Store.ofImage`: the short URLs of an image. It decides whether one of them is found
  (`Store.owned?_eq`).
* `Store.Sound`: ids and short URLs are distinct, and all of them can be reached by a path. It is kept
  when records are taken away (`Sound.sublist`) and when a new one is added (`Sound.add`).
-/

namespace AliasGate

open WideText (ofText)

/-! ## Comparing short URLs -/

namespace ShortUrl

variable {s t : ShortUrl}

theorem agrees_iff : s.agrees t = true ↔ s.user = t.user ∧ s.image = t.image ∧
    s.extension = t.extension ∧ (Json.obj s.query).agrees (.obj t.query) = true := by
  simp [agrees, and_assoc]

theorem agrees_refl (h : s.HasNames) : s.agrees s = true :=
  agrees_iff.mpr ⟨rfl, rfl, rfl, Json.agrees_refl h⟩

theorem agrees_symm (hs : s.HasNames) (ht : t.HasNames) (h : s.agrees t = true) :
    t.agrees s = true := by
  obtain ⟨huser, himage, hextension, hquery⟩ := agrees_iff.mp h
  exact agrees_iff.mpr ⟨huser.symm, himage.symm, hextension.symm, Json.agrees_symm hs ht hquery⟩

theorem same_extension_iff {e f : Option WideText} :
    Json.same (e.elim .null .str) (f.elim .null .str) = true ↔ e = f := by
  cases e <;> cases f <;> simp [Json.same, Json.agreesBy, Json.isSamePlain]

/-- The values of two short URLs are the same if their fields are. -/
theorem same_toJson_iff : s.toJson.same t.toJson = true ↔ s.user = t.user ∧ s.image = t.image ∧
    s.extension = t.extension ∧ (Json.obj s.query).same (.obj t.query) = true := by
  have hfields : s.toJson.same t.toJson = true ↔ ofText t.user = ofText s.user ∧
      ofText t.image = ofText s.image ∧
      Json.same (s.extension.elim .null .str) (t.extension.elim .null .str) = true ∧
      (Json.obj s.query).same (.obj t.query) = true := by
    show Json.agreesBy _ (.obj [_, _, _, _]) (.obj [_, _, _, _]) = true ↔ _
    rw [Json.agreesBy_obj]
    simp [Keyed.get?, ofText, Json.text, Json.same]
  rw [hfields, WideText.ofText_inj, WideText.ofText_inj, same_extension_iff, eq_comm (a := t.user),
    eq_comm (a := t.image)]

/-- What agrees with a short URL whose query is firm is the same. -/
theorem same_of_agrees (ht : (Json.obj t.query).All Json.IsFirm) (h : s.agrees t = true) :
    s.toJson.same t.toJson = true := by
  obtain ⟨huser, himage, hextension, hquery⟩ := agrees_iff.mp h
  exact same_toJson_iff.mpr ⟨huser, himage, hextension, Json.same_of_agrees ht hquery⟩

theorem same_refl (h : s.HasNames) : s.toJson.same s.toJson = true :=
  same_toJson_iff.mpr ⟨rfl, rfl, rfl, Json.same_refl h⟩

theorem isOf_iff {user image : Text} : s.isOf user image = true ↔ s.user = user ∧ s.image = image := by
  simp [isOf]

end ShortUrl

namespace Store

variable {store : Store} {s : ShortUrl} {id user image : Text}

/-! ## Finding -/

theorem idOf?_eq_none_iff :
    store.idOf? s = none ↔ ∀ record ∈ store, record.2.agrees s = false := by
  simp [idOf?]

/-- The id that is found is that of the first record that agrees. -/
theorem idOf?_eq_some_iff : store.idOf? s = some id ↔
    ∃ t, store.find? (fun record => record.2.agrees s) = some (id, t) := by
  simp [idOf?]

/-- If no id stands twice, the first record that agrees is the one under its id. -/
theorem lookup?_of_find? {t : ShortUrl} (hunique : (Keyed.keys store).Nodup)
    (h : store.find? (fun record => record.2.agrees s) = some (id, t)) :
    store.lookup? id = some t ∧ t.agrees s = true :=
  ⟨Keyed.get?_of_mem hunique (List.mem_of_find?_eq_some h), by simpa using List.find?_some h⟩

theorem idOf?_append (store more : Store) (s : ShortUrl) :
    idOf? (store ++ more) s = (store.idOf? s).or (idOf? more s) := by
  unfold idOf?
  rw [List.find?_append, Option.map_or]

/-- What was added for want of an agreeing short URL is found. -/
theorem idOf?_append_self (hnew : store.idOf? s = none) (hs : s.agrees s = true) (id : Text) :
    idOf? (store ++ [(id, s)]) s = some id := by
  rw [idOf?_append, hnew, Option.none_or]
  simp [idOf?, hs]

theorem lookup?_append_of_not_mem (h : id ∉ Keyed.keys store) (s : ShortUrl) :
    Store.lookup? (store ++ [(id, s)]) id = some s := by
  unfold lookup?
  rw [Keyed.get?_append, (Keyed.get?_eq_none_iff _ _).mpr h]
  simp [Keyed.get?]

/-! ## Images -/

/-- The records of an image, in order. -/
def ofImage (store : Store) (user image : Text) : Store :=
  store.filter fun record => record.2.isOf user image

/-- The records of all other images, in order. -/
def ofOthers (store : Store) (user image : Text) : Store :=
  store.filter fun record => !record.2.isOf user image

/-- The short URL under an id, if it is one of the image. -/
def owned? (store : Store) (id user image : Text) : Option ShortUrl :=
  (store.lookup? id).filter fun s => s.isOf user image

/-- What is found of an image is decided by the records of the image. -/
theorem owned?_eq (hunique : (Keyed.keys store).Nodup) (id user image : Text) :
    store.owned? id user image = (store.ofImage user image).lookup? id :=
  (Keyed.get?_filter hunique (fun record => record.2.isOf user image) id).symm

theorem owned?_eq_some_iff :
    store.owned? id user image = some s ↔ store.lookup? id = some s ∧ s.isOf user image = true := by
  simp [owned?, Option.filter_eq_some_iff]

/-- Without an id, all records of the image are taken away. -/
theorem erase_none (store : Store) (user image : Text) :
    store.erase user image none = store.ofOthers user image := by
  simp [erase, isDoomed, ofOthers]

@[simp] theorem ofOthers_ofOthers (store : Store) (user image : Text) :
    (store.ofOthers user image).ofOthers user image = store.ofOthers user image := by
  simp [ofOthers, List.filter_filter]

/-- A record of the image is none of another. -/
theorem ofOthers_append (h : s.isOf user image = true) (store : Store) (id : Text) :
    ofOthers (store ++ [(id, s)]) user image = store.ofOthers user image := by
  simp [ofOthers, h]

/-- Records of other images stay where they are. -/
theorem ofOthers_erase (store : Store) (user image : Text) (id : Option Text) :
    (store.erase user image id).ofOthers user image = store.ofOthers user image := by
  unfold erase ofOthers
  rw [List.filter_filter]
  refine List.filter_congr fun record _ => ?_
  cases hof : record.2.isOf user image <;> simp [isDoomed, hof]

/-- What is left of an image is decided by the records of the image. -/
theorem ofImage_erase (store : Store) (user image : Text) (id : Option Text) :
    (store.erase user image id).ofImage user image =
      (store.ofImage user image).erase user image id := by
  unfold erase ofImage
  rw [List.filter_filter, List.filter_filter]
  exact List.filter_congr fun record _ => Bool.and_comm _ _

/-- If no id stands twice, one record is taken away, the one that is found. -/
theorem erase_some (hunique : (Keyed.keys store).Nodup)
    (h : store.owned? id user image = some s) : ∃ before after,
      store = before ++ (id, s) :: after ∧ store.erase user image (some id) = before ++ after := by
  obtain ⟨hfound, hof⟩ := owned?_eq_some_iff.mp h
  obtain ⟨before, after, rfl⟩ := List.append_of_mem (Keyed.mem_of_get? hfound)
  have hnodup : (id :: Keyed.keys (before ++ after)).Nodup :=
    (List.perm_middle.map Prod.fst).nodup_iff.mp hunique
  have hstays : ∀ record ∈ before ++ after, (!isDoomed user image (some id) record) = true := by
    intro record hrecord
    have hne : record.1 ≠ id := fun heq =>
      (List.nodup_cons.mp hnodup).1 (heq ▸ List.mem_map_of_mem hrecord)
    simp [isDoomed, hne]
  refine ⟨before, after, rfl, ?_⟩
  calc erase (before ++ (id, s) :: after) user image (some id)
      = (before ++ after).filter fun record => !isDoomed user image (some id) record := by
        simp [erase, isDoomed, hof]
    _ = before ++ after := List.filter_eq_self.mpr hstays

/-! ## Soundness -/

/-- What holds of a store that has only grown by allocation: no id stands twice, each has the wanted
length and the form of an id, no two short URLs agree, and each is one that a request may hold, for an
image that a path can name. -/
structure Sound (length : Int) (store : Store) : Prop where
  unique : (Keyed.keys store).Nodup
  ids : ∀ record ∈ store, (record.1.length : Int) = length ∧ Target.isId record.1 = true
  apart : store.Pairwise fun a b => a.2.agrees b.2 = false ∧ b.2.agrees a.2 = false
  receivable : ∀ record ∈ store, record.2.Receivable
  segments : ∀ record ∈ store, '/' ∉ record.2.user ∧ '/' ∉ record.2.image

variable {length : Int}

theorem sound_nil : Sound length [] where
  unique := List.nodup_nil
  ids _ h := absurd h List.not_mem_nil
  apart := .nil
  receivable _ h := absurd h List.not_mem_nil
  segments _ h := absurd h List.not_mem_nil

/-- Taking records away keeps a store sound. -/
theorem Sound.sublist {store' : Store} (h : Sound length store) (hsub : store'.Sublist store) :
    Sound length store' where
  unique := h.unique.sublist (hsub.map _)
  ids record hrecord := h.ids record (hsub.subset hrecord)
  apart := h.apart.sublist hsub
  receivable record hrecord := h.receivable record (hsub.subset hrecord)
  segments record hrecord := h.segments record (hsub.subset hrecord)

/-- A new id for a short URL with which none agrees keeps a store sound. -/
theorem Sound.add (h : Sound length store) (hfree : id ∉ Keyed.keys store)
    (hid : (id.length : Int) = length ∧ Target.isId id = true) (hnew : store.idOf? s = none)
    (hs : s.Receivable) (hsegments : '/' ∉ s.user ∧ '/' ∉ s.image) :
    Sound length (store ++ [(id, s)]) := by
  have hlast : ∀ {P : Text × ShortUrl → Prop}, (∀ record ∈ store, P record) → P (id, s) →
      ∀ record ∈ store ++ [(id, s)], P record := fun hstore hlast record hrecord =>
    (List.mem_append.mp hrecord).elim (hstore record) fun h => List.mem_singleton.mp h ▸ hlast
  refine ⟨?_, hlast h.ids hid, ?_, hlast h.receivable hs, hlast h.segments hsegments⟩
  · rw [← Keyed.put_of_not_mem hfree s]
    exact Keyed.nodup_put h.unique id s
  · refine List.pairwise_append.mpr ⟨h.apart, List.pairwise_singleton _ _, fun a ha b hb => ?_⟩
    obtain rfl := List.mem_singleton.mp hb
    have hdiffers := idOf?_eq_none_iff.mp hnew a ha
    refine ⟨hdiffers, Bool.eq_false_iff.mpr fun hagrees => ?_⟩
    rw [ShortUrl.agrees_symm hs.hasNames (h.receivable a ha).hasNames hagrees] at hdiffers
    cases hdiffers

end Store

end AliasGate
