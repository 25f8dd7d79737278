import AliasGate.Proofs.Json.Writing
import AliasGate.Proofs.Storage.Coherence
import AliasGate.Proofs.Storage.Phases

/-!
# Finality of deletions

What a look-up finds that is started after a deletion has returned, when others are still on their
way. A look-up that has read a row before the commit may write the cache entry after the second
eviction.

* `Backend.IsClear b id`: nothing is left of an id. Look-ups keep that, unless one is about to write
  the entry of the id (`Seeker.Fills`), and then all that are started find nothing (`clear_of_play`).
* `deletion_final_iff`: a deletion is final exactly if no entry is there when it returns, and none is
  about to be written.
* `deletion_not_final`: an order of steps in which one is.
-/

namespace AliasGate.Storage

open Connection

/-! ## After a deletion -/

/-- The command that a program gives next, if it gives one next. -/
def Program.nextCommand? {α : Type} : Program α → Option Command
  | .command c _ => some c
  | _ => none

/-- The next step of a look-up writes the cache entry of an id. -/
def Seeker.Fills (s : Seeker) (id : Text) : Prop :=
  ∃ text seconds, s.session.rest.nextCommand? = some (.cacheSet (cacheKey id) text seconds)

/-- A look-up is in a phase. -/
def Seeker.IsAt (s : Seeker) (seconds : Int) (p : Seeking) : Prop :=
  s.session = ⟨p.rest seconds s.id, []⟩

namespace Seeking

/-- The phase in which the entry is written. -/
def isFilling : Seeking → Bool
  | filling _ _ _ => true
  | _ => false

/-- A phase from which a look-up goes on to find nothing if nothing is there. -/
def isVain : Seeking → Bool
  | beginning | asking | selecting | ended (.ok none) => true
  | _ => false

end Seeking

theorem fills_iff {s : Seeker} {seconds : Int} {p : Seeking} (h : s.IsAt seconds p) (id : Text) :
    s.Fills id ↔ s.id = id ∧ p.isFilling = true := by
  unfold Seeker.Fills
  rw [show s.session = _ from h]
  cases p with
  | filling u text hw =>
    have hnext : ((Seeking.filling u text hw).rest seconds s.id).nextCommand? =
        some (.cacheSet (cacheKey s.id) text seconds) := rfl
    refine ⟨fun ⟨text', seconds', hcmd⟩ => ?_, fun h => ⟨text, seconds, h.1 ▸ hnext⟩⟩
    rw [hnext] at hcmd
    injection hcmd with hcmd
    injection hcmd with hkey
    exact ⟨cacheKey_injective hkey, rfl⟩
  | ended found =>
    refine ⟨fun ⟨text, seconds', hcmd⟩ => ?_, fun h => (nomatch h.2)⟩
    cases found <;> cases hcmd
  | _ => exact ⟨fun ⟨text, seconds', hcmd⟩ => (nomatch hcmd), fun h => (nomatch h.2)⟩

/-- The cache holds an entry of an id. An empty text counts as none. -/
def Backend.IsCached (b : Backend) (id : Text) : Prop :=
  ∃ c text, Keyed.get? b.cache (cacheKey id) = some (c :: text)

/-- Nothing is left of an id, and nothing fails. -/
structure Backend.IsClear (b : Backend) (id : Text) : Prop where
  plan : b.plan = .never
  gone : id ∉ Keyed.keys b.table
  trusted : id ∉ b.distrusted
  uncached : ¬b.IsCached id

namespace Backend.IsClear

variable {b : Backend} {x : Text}

/-- A step of a look-up keeps that, if it does not write the entry. -/
theorem effect (h : b.IsClear x) {id : Text} {p : Seeking} (hp : id = x → p.isFilling = false) :
    (p.effect id b).IsClear x := by
  refine ⟨(p.effect_plan id b).trans h.plan, (p.effect_table id b).symm ▸ h.gone,
    fun hx => h.trusted (p.effect_distrusted id b hx), ?_⟩
  rintro ⟨c, text, hget⟩
  refine h.uncached ⟨c, text, ?_⟩
  cases p with
  | evicting =>
    rw [Seeking.effect, Keyed.get?_without] at hget
    split at hget
    · cases hget
    · exact hget
  | filling s text' hw =>
    have hne : ¬cacheKey id = cacheKey x := fun hkey =>
      absurd (hp (cacheKey_injective hkey)) (by simp [Seeking.isFilling])
    rw [Seeking.effect, Keyed.get?_put, if_neg hne] at hget
    exact hget
  | _ => exact hget

/-- A look-up that is to find nothing goes on to find nothing. -/
theorem isVain_next (h : b.IsClear x) {p : Seeking} (hp : p.isVain = true) :
    (p.next x b).isVain = true := by
  cases p with
  | beginning =>
    rw [Seeking.next, if_neg h.trusted]
    rfl
  | asking =>
    rw [Seeking.next]
    split
    · next c text hget => exact absurd ⟨c, text, hget⟩ h.uncached
    · rfl
  | selecting =>
    rw [Seeking.next, (Keyed.get?_eq_none_iff _ _).mpr h.gone]
    rfl
  | ended found => exact hp
  | _ => cases hp

/-- No look-up of the id comes to write the entry. -/
theorem isFilling_next (h : b.IsClear x) {p : Seeking} : (p.next x b).isFilling = false := by
  cases p with
  | beginning =>
    rw [Seeking.next]
    split <;> rfl
  | asking =>
    rw [Seeking.next]
    split <;> rfl
  | selecting =>
    rw [Seeking.next, (Keyed.get?_eq_none_iff _ _).mpr h.gone]
    rfl
  | _ => rfl

/-- A look-up that is to find nothing ends with a no if it is not disturbed. -/
theorem ending_of_isVain (h : b.IsClear x) (seconds : Int) {p : Seeking} (hp : p.isVain = true) :
    Session.ending ⟨p.rest seconds x, []⟩ b = .ok none := by
  have hended : ∀ {found : Except Fault (Option ShortUrl)} (c : Connection),
      (Seeking.ended found).isVain = true →
        (execute ((Seeking.ended found).rest seconds x) c).1 = .ok none := by
    intro found c hvain
    match found, hvain with
    | .ok none, _ => rfl
  have hselecting : ∀ c : Connection, c.backend = b →
      (execute (Seeking.selecting.rest seconds x) c).1 = .ok none := by
    rintro c rfl
    obtain ⟨log, hstep⟩ := Seeking.step_rest h.plan seconds x .selecting
    rw [← execute_step, hstep, Seeking.next, (Keyed.get?_eq_none_iff _ _).mpr h.gone]
    rfl
  have hasking : ∀ c : Connection, c.backend = b →
      (execute (Seeking.asking.rest seconds x) c).1 = .ok none := by
    rintro c rfl
    obtain ⟨log, hstep⟩ := Seeking.step_rest h.plan seconds x .asking
    have hnext : Seeking.asking.next x c.backend = .selecting := by
      rw [Seeking.next]
      split
      · next c' text hget => exact absurd ⟨c', text, hget⟩ h.uncached
      · rfl
    rw [← execute_step, hstep, hnext]
    exact hselecting _ rfl
  unfold Session.ending
  cases p with
  | beginning =>
    obtain ⟨log, hstep⟩ := Seeking.step_rest (c := ⟨b, [], []⟩) h.plan seconds x .beginning
    rw [← execute_step, hstep, Seeking.next, if_neg h.trusted]
    exact hasking _ rfl
  | asking => exact hasking _ rfl
  | selecting => exact hselecting _ rfl
  | ended found => exact hended _ hp
  | _ => cases hp

end Backend.IsClear

/-- A look-up of an id with an entry does not end with a no. -/
theorem ending_of_isCached {b : Backend} (hplan : b.plan = .never) {x : Text}
    (htrusted : x ∉ b.distrusted) (hcached : b.IsCached x) (seconds : Int) :
    Session.ending ⟨lookup (some seconds) x, []⟩ b ≠ .ok none := by
  obtain ⟨char, text, hget⟩ := hcached
  obtain ⟨log, hstep⟩ := Seeking.step_rest (c := ⟨b, [], []⟩) hplan seconds x .beginning
  obtain ⟨log', hstep'⟩ := Seeking.step_rest (c := ⟨b, [], log⟩) hplan seconds x .asking
  have hending : Session.ending ⟨lookup (some seconds) x, []⟩ b =
      Seeking.ofEntry (char :: text) := by
    show (execute (Seeking.beginning.rest seconds x) ⟨b, [], []⟩).1 = _
    rw [← execute_step, hstep, Seeking.next, if_neg htrusted, ← execute_step]
    simp only [Seeking.effect]
    rw [hstep', Seeking.next]
    simp only [hget]
    cases Seeking.ofEntry (char :: text) <;> rfl
  rw [hending]
  unfold Seeking.ofEntry
  cases ShortUrl.ofStored (WideText.ofText (char :: text)) <;> simp

/-! ## Runs -/

section

variable {b : Backend} {seconds : Int} {user image : Text} {id : Option Text}

/-- While a deletion and look-ups go on in any order, each is in one of its phases. -/
theorem phases_of_play (hplan : b.plan = .never) (moves : List Move) :
    let scene := (Scene.beforeDeletion b seconds user image id).play moves
    (scene.backend.plan = .never ∧ ∃ p : Erasing,
      scene.deletion = ⟨p.rest seconds user image id, p.pending user image id⟩ ∧
        p.Stands user image id b scene.backend) ∧
    ∀ (i : Nat) (s : Seeker), scene.seekers[i]? = some s → ∃ seconds p, s.IsAt seconds p := by
  refine Scene.play_keeps _
    (I := fun b' d => b'.plan = .never ∧ ∃ p : Erasing,
      d = ⟨p.rest seconds user image id, p.pending user image id⟩ ∧ p.Stands user image id b b')
    (Q := fun _ s => ∃ seconds p, s.IsAt seconds p) ?_ ?_ ?_ ?_ moves
  · exact ⟨⟨hplan, .selecting, rfl, rfl⟩, fun i s hs => (nomatch hs)⟩
  · exact fun i x seconds _ => ⟨seconds, .beginning, rfl⟩
  · rintro i s b' d ⟨hplan', p, hd, hstands⟩ ⟨seconds', q, hq⟩
    rw [show s.session = _ from hq, Seeking.session_step hplan']
    refine ⟨⟨(q.effect_plan s.id b').trans hplan', p, hd, ?_⟩, seconds', q.next s.id b', rfl⟩
    exact hstands.of_others (q.effect_table s.id b') (q.effect_distrusted s.id b')
  · rintro b' d ⟨hplan', p, rfl, hstands⟩
    rw [Erasing.session_step seconds hplan']
    refine ⟨?_, p.next user image id b', rfl, hstands.step⟩
    cases p <;> exact hplan'

/-- Once nothing is left of an id, and no look-up is about to write its entry, nothing of it comes
back, and look-ups of it that are started from now on find nothing. -/
theorem clear_of_play {scene : Scene} {x : Text} (hclear : scene.backend.IsClear x)
    (hdone : ∃ count, scene.deletion.rest = .done count)
    (hseekers : ∀ s ∈ scene.seekers, (∃ seconds p, s.IsAt seconds p) ∧ ¬s.Fills x)
    (moves : List Move) :
    (scene.play moves).backend.IsClear x ∧
      ∀ s ∈ (scene.play moves).seekers.drop scene.seekers.length, s.id = x →
        ∃ seconds p, s.IsAt seconds p ∧ p.isVain = true := by
  have hkeeps := Scene.play_keeps scene
    (I := fun b d => b.IsClear x ∧ ∃ count, d.rest = .done count)
    (Q := fun i s => ∃ seconds p, s.IsAt seconds p ∧
      (s.id = x → p.isFilling = false ∧ (scene.seekers.length ≤ i → p.isVain = true)))
    ?_ ?_ ?_ ?_ moves
  · refine ⟨hkeeps.1.1, fun s hs hid => ?_⟩
    obtain ⟨i, hi, rfl⟩ := List.mem_iff_getElem.mp hs
    rw [List.getElem_drop] at hid ⊢
    rw [List.length_drop] at hi
    obtain ⟨seconds, p, hp, hvain⟩ := hkeeps.2 (scene.seekers.length + i) _
      (List.getElem?_eq_getElem (by omega))
    exact ⟨seconds, p, hp, (hvain hid).2 (Nat.le_add_right _ _)⟩
  · refine ⟨⟨hclear, hdone⟩, fun i s hs => ?_⟩
    obtain ⟨⟨seconds, p, hp⟩, hfills⟩ := hseekers s (List.mem_of_getElem? hs)
    obtain ⟨hi, -⟩ := List.getElem?_eq_some_iff.mp hs
    refine ⟨seconds, p, hp, fun hid => ⟨?_, fun hle => absurd hi (by omega)⟩⟩
    exact Bool.eq_false_iff.mpr fun hfilling => hfills ((fills_iff hp x).mpr ⟨hid, hfilling⟩)
  · exact fun i y seconds hi => ⟨seconds, .beginning, rfl, fun _ => ⟨rfl, fun _ => rfl⟩⟩
  · rintro i s b d ⟨hb, hd⟩ ⟨seconds, p, hp, hid⟩
    rw [show s.session = _ from hp, Seeking.session_step hb.plan]
    refine ⟨⟨hb.effect fun h => (hid h).1, hd⟩, seconds, p.next s.id b, rfl, fun h => ?_⟩
    have h' : s.id = x := h
    rw [h']
    exact ⟨hb.isFilling_next, fun hi => hb.isVain_next ((hid h').2 hi)⟩
  · rintro b ⟨rest, pending⟩ ⟨hb, count, rfl⟩
    exact ⟨hb, count, rfl⟩

/-- If all look-ups that are started later end with a no, no trusted entry is there as long as none
is started. -/
theorem uncached_of_final {scene : Scene} {x : Text}
    (hfinal : ∀ moves, ∀ s ∈ (scene.play moves).seekers.drop scene.seekers.length, s.id = x →
      s.session.ending (scene.play moves).backend = .ok none)
    (moves : List Move) (hlength : (scene.play moves).seekers.length = scene.seekers.length)
    (hplan : (scene.play moves).backend.plan = .never)
    (htrusted : x ∉ (scene.play moves).backend.distrusted) :
    ¬(scene.play moves).backend.IsCached x := by
  intro hcached
  have hplay : scene.play (moves ++ [.start x 0]) = (scene.play moves).after (.start x 0) :=
    List.foldl_append
  have hending := hfinal (moves ++ [.start x 0]) ⟨x, ⟨lookup (some 0) x, []⟩⟩
    (by simp [hplay, Scene.after, ← hlength]) rfl
  rw [hplay] at hending
  exact ending_of_isCached hplan htrusted hcached 0 hending

/-- A look-up that is about to write the entry of an id writes it, and changes nothing else. -/
theorem isCached_of_fills {scene : Scene} (hplan : scene.backend.plan = .never) {i : Nat}
    {s : Seeker} (hi : scene.seekers[i]? = some s) {seconds : Int} {p : Seeking}
    (hs : s.IsAt seconds p) {x : Text} (hfills : s.Fills x) :
    (scene.after (.seek i)).seekers.length = scene.seekers.length ∧
      (scene.after (.seek i)).backend.plan = .never ∧
      (scene.after (.seek i)).backend.distrusted = scene.backend.distrusted ∧
      (scene.after (.seek i)).backend.IsCached x := by
  obtain ⟨hid, hfilling⟩ := (fills_iff hs x).mp hfills
  cases p with
  | filling u text hw =>
    have hwritten : (scene.after (.seek i)).backend =
        (Seeking.filling u text hw).effect s.id scene.backend := by
      rw [Scene.after_seek hi, show s.session = _ from hs, Seeking.session_step hplan]
    obtain ⟨char, rest, rfl⟩ := List.exists_cons_of_ne_nil (Json.write_obj_ne_nil hw)
    refine ⟨?_, ?_, ?_, char, rest, ?_⟩
    · rw [Scene.after_seek hi, List.length_set]
    · rw [hwritten]
      exact hplan
    · rw [hwritten]
      rfl
    · rw [hwritten, Seeking.effect, Keyed.get?_put, if_pos (congrArg cacheKey hid)]
  | _ => cases hfilling

/-- **When a deletion is final.** Once a deletion has returned, while nothing fails, each look-up of
a deleted id that starts later ends with `none`, exactly if the id is not cached by then and no
look-up under way `Fills` it. -/
theorem deletion_final_iff (hplan : b.plan = .never) (hunique : (Keyed.keys b.table).Nodup)
    {row : Text × ShortUrl} (hrow : row ∈ b.table) (hdoomed : Store.isDoomed user image id row)
    {before : List Move} {count : Nat}
    (hreturned : ((Scene.beforeDeletion b seconds user image id).play before).deletion.rest =
      .done count) :
    let scene := (Scene.beforeDeletion b seconds user image id).play before
    (∀ moves, ∀ s ∈ (scene.play moves).seekers.drop scene.seekers.length, s.id = row.1 →
      s.session.ending (scene.play moves).backend = .ok none) ↔
    ¬scene.backend.IsCached row.1 ∧ ∀ s ∈ scene.seekers, ¬s.Fills row.1 := by
  intro scene
  obtain ⟨⟨hplan', p, hdeletion, hstands⟩, hphases⟩ := phases_of_play hplan before
  have hrest : p.rest seconds user image id = .done count := by
    rw [← hreturned, hdeletion]
  obtain rfl := Erasing.eq_ended_of_rest seconds hrest
  obtain ⟨htable, htrusted⟩ := hstands
  have hgone : row.1 ∉ Keyed.keys scene.backend.table := by
    rw [htable]
    exact not_mem_keys_erase hunique hrow hdoomed
  have hmem : row.1 ∈ Erasing.doomedIds user image id b :=
    List.mem_map_of_mem (List.mem_filter.mpr ⟨hrow, (holds_ofImage user image id row).trans hdoomed⟩)
  constructor
  · intro hfinal
    refine ⟨uncached_of_final hfinal [] rfl hplan' (htrusted _ hmem), fun s hs hfills => ?_⟩
    obtain ⟨i, hi⟩ := List.mem_iff_getElem?.mp hs
    obtain ⟨seconds', q, hq⟩ := hphases i s hi
    obtain ⟨hlength, hplan, hdistrusted, hcached⟩ := isCached_of_fills hplan' hi hq hfills
    have htrusted' : row.1 ∉ (scene.after (.seek i)).backend.distrusted := by
      rw [hdistrusted]
      exact htrusted _ hmem
    exact uncached_of_final hfinal [.seek i] hlength hplan htrusted' hcached
  · rintro ⟨huncached, hfills⟩ moves s hs hid
    have hclear : scene.backend.IsClear row.1 := ⟨hplan', hgone, htrusted _ hmem, huncached⟩
    have hseekers : ∀ s ∈ scene.seekers, (∃ seconds p, s.IsAt seconds p) ∧ ¬s.Fills row.1 := by
      intro s hs
      obtain ⟨i, hi⟩ := List.mem_iff_getElem?.mp hs
      exact ⟨hphases i s hi, hfills s hs⟩
    obtain ⟨hclear', hvain⟩ := clear_of_play hclear ⟨count, hreturned⟩ hseekers moves
    obtain ⟨seconds', q, hq, hqvain⟩ := hvain s hs hid
    rw [show s.session = _ from hq, hid]
    exact hclear'.ending_of_isVain seconds' hqvain

end

/-- A short URL without query. -/
def plain : ShortUrl := ⟨"u".toList, "i".toList, none, []⟩

/-- One row, and nothing in the cache. -/
def storedOnce : Backend := ⟨[("a".toList, plain)], [], [], .never⟩

/-- Its deletion. -/
def deletedOnce : Scene := .beforeDeletion storedOnce 60 "u".toList "i".toList none

/-- A look-up fills the cache between the first eviction of a deletion and the commit. -/
def refilled : List Move :=
  List.replicate 3 .erase ++ .start "a".toList 60 :: List.replicate 4 (.seek 0) ++
    List.replicate 4 .erase

/-- What was filled between is evicted again. -/
theorem deletion_final_iff_refilled :
    storedOnce.plan = .never ∧ (Keyed.keys storedOnce.table).Nodup ∧
      ("a".toList, plain) ∈ storedOnce.table ∧
      Store.isDoomed "u".toList "i".toList none ("a".toList, plain) ∧
      (deletedOnce.play refilled).deletion.rest = .done 1 ∧
      ∀ moves, ∀ s ∈ ((deletedOnce.play refilled).play moves).seekers.drop 1, s.id = "a".toList →
        s.session.ending ((deletedOnce.play refilled).play moves).backend = .ok none := by
  have hunique : (Keyed.keys storedOnce.table).Nodup := by decide
  have hrow : ("a".toList, plain) ∈ storedOnce.table := List.mem_cons_self
  have hreturned : (deletedOnce.play refilled).deletion.rest = .done 1 := rfl
  have huncached : ¬(deletedOnce.play refilled).backend.IsCached "a".toList := by
    rintro ⟨c, text, hget⟩
    cases hget
  have hseekers : (deletedOnce.play refilled).seekers =
      [⟨"a".toList, ⟨.done (some plain), []⟩⟩] := rfl
  refine ⟨rfl, hunique, hrow, rfl, hreturned, ?_⟩
  refine (deletion_final_iff rfl hunique hrow rfl hreturned).mpr ⟨huncached, fun s hs => ?_⟩
  rw [show ((Scene.beforeDeletion storedOnce 60 "u".toList "i".toList none).play refilled).seekers =
    _ from hseekers] at hs
  obtain rfl := List.mem_singleton.mp hs
  rintro ⟨text, seconds, hnext⟩
  cases hnext

/-- A look-up reads the row before the commit of a deletion, and is about to fill the cache when the
deletion has returned. -/
def overtaken : List Move :=
  .start "a".toList 60 :: List.replicate 3 (.seek 0) ++ List.replicate 7 .erase

/-- It fills the cache, and another look-up is started. -/
def overtaking : List Move := .seek 0 :: .start "a".toList 60 :: List.replicate 2 (.seek 1)

/-- The other look-up, started after the deletion has returned, ends with the deleted short URL. -/
theorem deletion_not_final :
    let scene := deletedOnce.play overtaken
    let later := scene.play overtaking
    scene.deletion.rest = .done 1 ∧ scene.backend.table.isEmpty = true ∧
      ((later.seekers.drop scene.seekers.length).map fun s =>
        (s.id, (s.session.ending later.backend).toOption.any fun found =>
          found.any plain.agrees)) = [("a".toList, true)] := by
  refine ⟨rfl, rfl, ?_⟩
  decide +kernel

end AliasGate.Storage
