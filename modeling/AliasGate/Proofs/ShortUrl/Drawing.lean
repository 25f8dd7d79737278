import AliasGate.Proofs.ShortUrl.Allocation

/-!
# Which id is allocated

The allocation of an id in memory, followed draw by draw. A source of ids is taken for the sequence
of ids that it gives, whatever these are.

* `IdSource.afterDraws`: the source after a number of draws, beside `IdSource.upcoming`, the ids
  that these draws give.
* `IdSource.upcoming_script`: the ids of a script come one after another, so that every sequence of
  ids is one that some source gives.
* `Database.allocateFresh_first_free`, `Database.allocateFresh_exhausted`: the first free one among
  the drawn ids is taken, and the draws end with it.
* `Database.allocate_takes_first`: the first agreeing short URL, or else the first free id, or else
  none.
-/

namespace AliasGate

/-! ## Draws -/

namespace IdSource

variable {length : Int}

/-- The source of ids after a number of draws. -/
def afterDraws (length : Int) : Nat → IdSource → IdSource
  | 0, ids => ids
  | draws + 1, ids => afterDraws length draws ((draw length).perform ids).2

theorem upcoming_succ {id : Text} {ids ids' : IdSource}
    (h : (draw length).perform ids = (.ok id, ids')) (draws : Nat) :
    ids.upcoming length (draws + 1) = id :: ids'.upcoming length draws := by
  simp only [upcoming, h]

theorem afterDraws_succ {id : Text} {ids ids' : IdSource}
    (h : (draw length).perform ids = (.ok id, ids')) (draws : Nat) :
    ids.afterDraws length (draws + 1) = ids'.afterDraws length draws := by
  rw [afterDraws, h]

/-- Every draw gives an id. -/
theorem length_upcoming (hlength : 0 < length) (draws : Nat) (ids : IdSource) :
    (ids.upcoming length draws).length = draws := by
  induction draws generalizing ids with
  | zero => rfl
  | succ draws ih =>
    obtain ⟨id, ids', h⟩ := exists_draw hlength ids
    rw [upcoming_succ h, List.length_cons, ih]

/-- The ids of a script are drawn in its order. -/
theorem upcoming_script (hlength : 0 < length) {draws : Nat} {script : List Text}
    (hdraws : draws ≤ script.length) (next : Nat) :
    upcoming length draws ⟨script, next⟩ = script.take draws := by
  induction draws generalizing script with
  | zero => rfl
  | succ draws ih =>
    cases script with
    | nil => simp at hdraws
    | cons id script =>
      have h : (draw length).perform ⟨id :: script, next⟩ = (.ok id, ⟨script, next⟩) := by
        simp [draw, Int.not_le.mpr hlength]
      rw [upcoming_succ h, List.take_succ_cons, ih (Nat.le_of_succ_le_succ hdraws)]

end IdSource

/-! ## Drawing for a short URL -/

namespace Database

variable {length : Int} {s : ShortUrl} {store : Store} {ids : IdSource} {draws : Nat}

/-- Ids in use are passed over, and the draws end with the first one that is free. -/
theorem allocateFresh_first_free (healthy : Bool) (hlength : 0 < length) {taken untried : List Text}
    {id : Text} (hdrawn : ids.upcoming length draws = taken ++ id :: untried)
    (htaken : ∀ t ∈ taken, t ∈ Keyed.keys store) (hfree : id ∉ Keyed.keys store) :
    ((inMemory healthy).allocateFresh length s draws).perform (store, ids) =
      (.ok id, store ++ [(id, s)], ids.afterDraws length (taken.length + 1)) := by
  induction draws generalizing ids taken with
  | zero => cases taken <;> cases hdrawn
  | succ draws ih =>
    obtain ⟨first, ids', hdraw⟩ := IdSource.exists_draw hlength ids
    rw [IdSource.upcoming_succ hdraw] at hdrawn
    rw [perform_allocateFresh_succ healthy hdraw, IdSource.afterDraws_succ hdraw]
    cases taken with
    | nil =>
      obtain ⟨rfl, -⟩ := List.cons.inj hdrawn
      rw [if_neg hfree]
      rfl
    | cons t taken =>
      obtain ⟨rfl, hrest⟩ := List.cons.inj hdrawn
      obtain ⟨hused, htaken⟩ := List.forall_mem_cons.mp htaken
      rw [if_pos hused, ih hrest htaken]
      rfl

/-- If every id drawn is in use, none is found, and the store stays as it was. -/
theorem allocateFresh_exhausted (healthy : Bool) (hlength : 0 < length)
    (hused : ∀ id ∈ ids.upcoming length draws, id ∈ Keyed.keys store) :
    ((inMemory healthy).allocateFresh length s draws).perform (store, ids) =
      (.error (.failure .noFreeId), store, ids.afterDraws length draws) := by
  induction draws generalizing ids with
  | zero => rfl
  | succ draws ih =>
    obtain ⟨first, ids', hdraw⟩ := IdSource.exists_draw hlength ids
    rw [IdSource.upcoming_succ hdraw] at hused
    obtain ⟨hfirst, hrest⟩ := List.forall_mem_cons.mp hused
    rw [perform_allocateFresh_succ healthy hdraw, if_pos hfirst, ih hrest,
      IdSource.afterDraws_succ hdraw]

/-! ## Allocation -/

/-- **Which id is allocated.** The id of the first agreeing short URL, without a draw; else the
first of the ten `upcoming` ids that is free, under which the short URL is added; else none, which
is the failure `noFreeId` and leaves the store as it was. -/
theorem allocate_takes_first (healthy : Bool) (hlength : 0 < length) (s : ShortUrl) (store : Store)
    (ids : IdSource) :
    let ending := ((inMemory healthy).allocate length s).perform (store, ids)
    let drawn := ids.upcoming length 10
    drawn.length = 10 ∧
    (∀ before id t after, store = before ++ (id, t) :: after →
      (∀ record ∈ before, record.2.agrees s = false) → t.agrees s = true →
      ending = (.ok id, store, ids)) ∧
    ((∀ record ∈ store, record.2.agrees s = false) →
      (∀ taken id untried, drawn = taken ++ id :: untried →
        (∀ t ∈ taken, t ∈ Keyed.keys store) → id ∉ Keyed.keys store →
        ending = (.ok id, store ++ [(id, s)], ids.afterDraws length (taken.length + 1))) ∧
      ((∀ id ∈ drawn, id ∈ Keyed.keys store) →
        ending = (.error (.failure .noFreeId), store, ids.afterDraws length 10) ∧
        Failure.noFreeId.kind = .database)) ∧
    ∀ id, ending.1 ≠ .error (.failure (.idInUse id)) := by
  intro ending drawn
  have hending : ending = _ := perform_allocate healthy length s store ids
  refine ⟨IdSource.length_upcoming hlength 10 ids, ?_, fun hnew => ?_, fun id hfault => ?_⟩
  · intro before id t after hstore hbefore ht
    have hfind : store.find? (fun record => record.2.agrees s) = some (id, t) := by
      apply List.find?_eq_some_iff_append.mpr
      exact ⟨ht, before, after, hstore, fun record hrecord => by simp [hbefore record hrecord]⟩
    rw [hending, Store.idOf?_eq_some_iff.mpr ⟨t, hfind⟩]
  · rw [Store.idOf?_eq_none_iff.mpr hnew] at hending
    refine ⟨fun taken id untried hdrawn htaken hfree => ?_, fun hused => ⟨?_, rfl⟩⟩
    · exact hending.trans (allocateFresh_first_free healthy hlength hdrawn htaken hfree)
    · exact hending.trans (allocateFresh_exhausted healthy hlength hused)
  · obtain ⟨hnoFreeId, -⟩ := (allocate_error_iff healthy hlength ids).mp hfault
    cases hnoFreeId

/-- Two short URLs of other images. -/
def crowd : Store :=
  [("aa".toList, ⟨"u".toList, "i".toList, none, []⟩),
    ("bb".toList, ⟨"u".toList, "j".toList, none, []⟩)]

/-- A source whose first free id comes fourth, behind ids in use, one of them drawn twice. -/
def repetitive : IdSource :=
  .ofScript ["bb".toList, "aa".toList, "bb".toList, "cc".toList, "dd".toList, "ee".toList,
    "ff".toList, "gg".toList, "hh".toList, "ii".toList, "jj".toList]

/-- Behind three ids in use, the fourth is taken, and the fifth is the next to be drawn. -/
theorem allocate_takes_first_fourth :
    0 < (2 : Int) ∧ repetitive.upcoming 2 10 = repetitive.script.take 10 ∧
      ((inMemory true).allocate 2 ⟨"u".toList, "k".toList, none, []⟩).perform (crowd, repetitive) =
        (.ok "cc".toList, crowd ++ [("cc".toList, ⟨"u".toList, "k".toList, none, []⟩)],
          ⟨repetitive.script.drop 4, 0⟩) := by
  have hdrawn : repetitive.upcoming 2 10 = repetitive.script.take 10 :=
    IdSource.upcoming_script (by decide) (by decide) 0
  have hnew : ∀ record ∈ crowd, record.2.agrees ⟨"u".toList, "k".toList, none, []⟩ = false := by
    decide +kernel
  obtain ⟨-, -, hfresh, -⟩ := @allocate_takes_first 2 true (by decide)
    ⟨"u".toList, "k".toList, none, []⟩ crowd repetitive
  exact ⟨by decide, hdrawn, (hfresh hnew).1 ["bb".toList, "aa".toList, "bb".toList] "cc".toList
    _ hdrawn (by decide) (by decide)⟩

end Database

end AliasGate
