import AliasGate.Proofs.Storage.Deletion
import AliasGate.Proofs.Storage.Turns
import Mathlib.Data.List.Nodup

/-!
# Coherence of cache and rows

Operations come one after another while any command of theirs may fail. The cache never vouches for
a row that is not there.

* `Backend.Coherent`: every trusted entry is the written form of the row under its id.
* `lookup_ends`, `insert_ends`, `find_ends`, `delete_ends`: each operation keeps it, however it
  ends, and what a look-up finds is decided by the rows.
* `coherent_after_turns`: it holds after any run.
-/

namespace AliasGate.Storage

open AliasGate.Action (Ends)
open Connection

/-- Each id has one row, and each trusted entry is what the row under its id is written as. -/
structure Backend.Coherent (b : Backend) : Prop where
  unique : (Keyed.keys b.table).Nodup
  written : ∀ id text, b.Trusts id text →
    ∃ s, Keyed.get? b.table id = some s ∧ s.written = .ok text

namespace Backend

variable {b b' : Backend} {ids : List Text}

theorem Coherent.narrowed (h : b.Coherent) (hb : b.Narrowed ids b') : b'.Coherent := by
  refine ⟨hb.table ▸ h.unique, fun id text ht => ?_⟩
  rw [hb.table]
  exact h.written id text (hb.trusts id text ht).1

/-- Rows may be added at the end, under a new id. -/
theorem Coherent.add (h : b.Coherent) {id : Text} (hid : id ∉ Keyed.keys b.table) (s : ShortUrl) :
    Coherent { b with table := b.table ++ [(id, s)] } := by
  refine ⟨?_, fun id' text ht => ?_⟩
  · rw [Keyed.keys, List.map_append]
    refine List.nodup_append.mpr ⟨h.unique, List.pairwise_singleton _ id, fun a ha a' ha' => ?_⟩
    obtain rfl : a' = id := List.mem_singleton.mp ha'
    exact fun heq => hid (heq ▸ ha)
  · obtain ⟨u, hu, hw⟩ := h.written id' text ht
    exact ⟨u, by rw [Keyed.get?_append, hu, Option.some_or], hw⟩

/-- Rows may be taken away whose entries are not trusted. -/
theorem Coherent.remove (h : b.Coherent) {p : Text × ShortUrl → Bool}
    (hp : ∀ row ∈ b.table, p row = false → ∀ text, ¬b.Trusts row.1 text) :
    Coherent { b with table := b.table.filter p } := by
  refine ⟨(List.filter_sublist.map _).nodup h.unique, fun id text ht => ?_⟩
  obtain ⟨u, hu, hw⟩ := h.written id text ht
  refine ⟨u, ?_, hw⟩
  rw [Keyed.get?_filter_of_forall fun row hrow hid => ?_, hu]
  cases hpr : p row with
  | true => rfl
  | false => exact absurd (hid ▸ ht) (hp row hrow hpr text)

/-- The written row of an id may be put into the cache. -/
theorem Coherent.fill (h : b.Coherent) {id text : Text} {s : ShortUrl}
    (hs : Keyed.get? b.table id = some s) (hw : s.written = .ok text) :
    Coherent { b with cache := Keyed.put b.cache (cacheKey id) text } := by
  refine ⟨h.unique, fun id' text' ht => ?_⟩
  rcases Keyed.mem_put ht.1 with heq | hmem
  · obtain ⟨hkey, rfl⟩ := Prod.mk.inj heq
    exact ⟨s, cacheKey_injective hkey ▸ hs, hw⟩
  · exact h.written id' text' ⟨hmem, ht.2⟩

theorem coherent_empty : Backend.empty.Coherent :=
  ⟨List.nodup_nil, fun _ _ h => absurd h.1 List.not_mem_nil⟩

end Backend

theorem Backend.Coherent.noted {c : Connection} (h : c.backend.Coherent) (cmd : Command) :
    (c.noted cmd).backend.Coherent :=
  h.narrowed (narrowed_noted c cmd)

theorem Backend.Coherent.rolledBack {c : Connection} (h : c.backend.Coherent) :
    c.rolledBack.backend.Coherent :=
  h.noted .rollback

/-! ## Look-ups -/

/-- What a look-up may leave: the same rows, no changes but those that waited before, and a cache
that agrees with the rows. -/
structure Looked (c c' : Connection) : Prop where
  table : c'.backend.table = c.backend.table
  pending : c'.pending = c.pending
  coherent : c'.backend.Coherent

variable {c : Connection}

theorem looked_noted (hc : c.backend.Coherent) (cmd : Command) : Looked c (c.noted cmd) :=
  ⟨rfl, rfl, hc.noted cmd⟩

theorem Looked.trans {c c' c'' : Connection} (h : Looked c c') (h' : Looked c' c'') :
    Looked c c'' :=
  ⟨h'.table.trans h.table, h'.pending.trans h.pending, h'.coherent⟩

theorem fillCache_ends (hc : c.backend.Coherent) {id : Text} {s : ShortUrl}
    (hs : Keyed.get? c.backend.table id = some s) (seconds : Int) :
    Ends (execute (fillCache seconds id s) c) (fun _ => Looked c) fun _ => Looked c := by
  unfold fillCache
  cases hw : s.written with
  | error e => exact ⟨rfl, rfl, hc⟩
  | ok text =>
    rw [execute_demand]
    cases hfails : c.failsNext (.cacheSet (cacheKey id) text seconds) with
    | true =>
      rw [carryOut_failed hfails]
      exact looked_noted hc _
    | false =>
      rw [carryOut_cacheSet hfails]
      exact ⟨rfl, rfl, (looked_noted hc _).coherent.fill hs hw⟩

theorem lookupRow_ends (hc : c.backend.Coherent) (cache : Option Int) (id : Text) :
    Ends (execute (lookupRow cache id) c)
      (fun found c' => Looked c c' ∧ found = Keyed.get? c.backend.table id)
      fun _ => Looked c := by
  unfold lookupRow
  rw [execute_bind, execute_demand]
  cases hfails : c.failsNext (.select (.ofId id)) with
  | true =>
    rw [carryOut_failed hfails]
    exact looked_noted hc _
  | false =>
    have hnoted := looked_noted hc (.select (.ofId id))
    have hrow := select_ofId c.backend.table id
    rw [carryOut_select hfails, Action.andThen_ok]
    generalize c.backend.table.filter (Selection.ofId id).holds = rows at hrow
    match rows, hrow with
    | [], hrow => exact ⟨hnoted, hrow⟩
    | (_, s) :: _, hrow =>
      cases cache with
      | none => exact ⟨hnoted, hrow⟩
      | some seconds =>
        have hfill : Ends (execute (fillCache seconds id s) (c.noted (.select (.ofId id))))
            (fun _ => Looked c) fun _ => Looked c :=
          (fillCache_ends hnoted.coherent hrow.symm seconds).mono
            (fun _ _ h => hnoted.trans h) fun _ _ h => hnoted.trans h
        rw [perform_run, execute_bind]
        exact hfill.andThen fun _ _ h => ⟨h, hrow⟩

/-- A trusted entry is the text of a row, so reading it never ends in a no. -/
theorem readEntry_ends {id text : Text} (hc : c.backend.Coherent) (ht : c.backend.Trusts id text) :
    Ends (execute (some <$> readEntry text) c)
      (fun found c' => Looked c c' ∧
        (found = none ↔ Keyed.get? c.backend.table id = none))
      fun _ => Looked c := by
  obtain ⟨s, hs, -⟩ := hc.written id text ht
  have hsame : Looked c c := ⟨rfl, rfl, hc⟩
  rw [execute_map]
  unfold readEntry
  cases ShortUrl.ofStored (WideText.ofText text) with
  | ok u => exact ⟨hsame, by simp [hs]⟩
  | error refusal => exact hsame

/-- **Look-ups.** However it ends, a look-up leaves rows and coherence. If it ends with a result,
that is a no exactly if the id has no row. -/
theorem lookup_ends (hc : c.backend.Coherent) (seconds : Int) (id : Text) :
    Ends (execute (lookup (some seconds) id) c)
      (fun found c' => Looked c c' ∧ (found = none ↔ Keyed.get? c.backend.table id = none))
      fun _ => Looked c := by
  unfold lookup
  rw [execute_bind]
  refine ((trustedCache_ends seconds id c).mono (fun _ _ h => h) ?_).andThen ?_
  · exact fun _ _ h => h.elim
  rintro cache c' ⟨hpending, hnarrowed, hcache⟩
  have hlooked : Looked c c' := ⟨hnarrowed.table, hpending, hc.narrowed hnarrowed⟩
  have hrow : ∀ {cache : Option Int} {c' : Connection}, Looked c c' →
      Ends (execute (lookupRow cache id) c')
        (fun found c'' => Looked c c'' ∧ (found = none ↔ Keyed.get? c.backend.table id = none))
        fun _ => Looked c := fun {cache c'} h =>
    (lookupRow_ends h.coherent cache id).mono
      (fun found c'' hf => ⟨h.trans hf.1, by rw [hf.2, h.table]⟩) fun _ _ hf => h.trans hf
  rw [perform_run]
  rcases hcache with rfl | ⟨rfl, hid⟩
  · rw [if_pos rfl]
    exact hrow hlooked
  rw [if_neg (by simp), execute_bind, execute_demand]
  cases hfails : c'.failsNext (.cacheGet (cacheKey id)) with
  | true =>
    rw [carryOut_failed hfails]
    exact hlooked.trans (looked_noted hlooked.coherent _)
  | false =>
    have hnoted := looked_noted hlooked.coherent (.cacheGet (cacheKey id))
    rw [carryOut_cacheGet hfails, Action.andThen_ok, perform_run]
    split
    · next char text hentry =>
      have ht : (c'.noted (.cacheGet (cacheKey id))).backend.Trusts id (char :: text) :=
        ⟨Keyed.mem_of_get? hentry, hid⟩
      refine (readEntry_ends hnoted.coherent ht).mono (fun found c'' hf => ?_) fun _ c'' hf => ?_
      · exact ⟨(hlooked.trans hnoted).trans hf.1, by rw [hf.2, noted_table, hlooked.table]⟩
      · exact (hlooked.trans hnoted).trans hf
    · exact hrow (hlooked.trans hnoted)

/-! ## Changes of rows -/

/-- Inserting with no changes waiting adds one row under a new id, or leaves the rows. -/
theorem insert_ends (hp : c.pending = []) (hc : c.backend.Coherent) (id : Text) (s : ShortUrl) :
    Ends (execute (insert id s) c) (fun _ c' => c'.pending = [] ∧ c'.backend.Coherent)
      fun _ c' => c'.backend.Coherent := by
  have hstaged : (c.staged id s).backend.Coherent := hc
  rw [execute_insert hp]
  by_cases hfails : c.failsNext .commit = true
  · rw [if_pos hfails]
    exact (hstaged.noted .commit).rolledBack
  by_cases hencodable : (!isEncodable s) = true
  · rw [if_neg hfails, if_pos hencodable]
    exact hstaged.noted .commit
  by_cases hused : id ∈ Keyed.keys c.backend.table
  · rw [if_neg hfails, if_neg hencodable, if_pos hused]
    exact (hstaged.noted .commit).rolledBack
  · rw [if_neg hfails, if_neg hencodable, if_neg hused]
    exact ⟨rfl, (hc.noted .commit).add hused _⟩

theorem find_ends (hp : c.pending = []) (hc : c.backend.Coherent) (s : ShortUrl) :
    Ends (execute (find s) c) (fun _ c' => c'.pending = [] ∧ c'.backend.Coherent)
      fun _ c' => c'.backend.Coherent := by
  unfold find
  rw [execute_bind, execute_demand]
  cases hfails : c.failsNext (.select (.ofImage s.user s.image none)) with
  | true =>
    rw [carryOut_failed hfails]
    exact hc.noted _
  | false =>
    rw [carryOut_select hfails]
    exact ⟨hp, hc.noted (.select (.ofImage s.user s.image none))⟩

/-- **Deletions.** A deletion that ends with a count has taken the rows away; otherwise they are all
there. -/
theorem delete_ends (hp : c.pending = []) (hc : c.backend.Coherent) (seconds : Int)
    (user image : Text) (id : Option Text) :
    Ends (execute (delete (some seconds) user image id) c)
      (fun _ c' => c'.pending = [] ∧ c'.backend.Coherent ∧
        c'.backend.table = c.backend.table.erase user image id)
      fun _ c' => c'.backend.Coherent := by
  have hdeletion := delete_deletion user image id (some seconds) c hp
  generalize execute (delete (some seconds) user image id) c = x at hdeletion ⊢
  have hselected := hc.noted (.select (.ofImage user image id))
  cases hdeletion with
  | unselected => exact hselected.rolledBack
  | nothing _ hnone => exact ⟨hp, hselected, (erase_of_doomedIds_nil user image id hnone).symm⟩
  | unerased _ _ hevicted =>
    have hcoherent := hselected.narrowed (hevicted.narrowed nofun)
    exact (hcoherent.noted (.erase (.ofImage user image id))).rolledBack
  | @uncommitted _ c₁ _ _ hevicted =>
    have hcoherent := hselected.narrowed (hevicted.narrowed nofun)
    have herased : (c₁.erased (.ofImage user image id)).backend.Coherent := hcoherent.noted _
    exact (herased.noted .commit).rolledBack
  | @done _ _ c₁ c₂ _ _ hevicted _ _ hagain =>
    have hnarrowed := hevicted.narrowed nofun
    have herased : (c₁.erased (.ofImage user image id)).backend.Coherent :=
      (hselected.narrowed hnarrowed).noted _
    have hcommitted : ((c₁.erased (.ofImage user image id)).committed
        (c.backend.table.erase user image id)).backend.Coherent := by
      have htable : c₁.backend.table = c.backend.table := hevicted.table
      rw [← htable]
      refine (herased.noted .commit).remove fun row hrow hdoomed text ht => ?_
      -- the first eviction left no trusted entry of the row
      have hmem : row.1 ∈ doomedIds user image id c.backend.table := by
        have hrow' : row ∈ c.backend.table := htable ▸ hrow
        exact List.mem_map_of_mem (List.mem_filter.mpr ⟨hrow', by simpa using hdoomed⟩)
      exact (hnarrowed.trusts row.1 text ht).2 hmem
    exact ⟨hagain.pending, hcommitted.narrowed (hagain.narrowed nofun), hagain.table⟩

theorem isHealthy_ends (hp : c.pending = []) (hc : c.backend.Coherent) :
    Ends (execute isHealthy c) (fun _ c' => c'.pending = [] ∧ c'.backend.Coherent)
      fun _ c' => c'.backend.Coherent := by
  unfold isHealthy
  rw [execute_bind, execute_give]
  cases hfails : c.failsNext .probe with
  | true =>
    rw [carryOut_failed hfails]
    exact ⟨hp, hc.noted .probe⟩
  | false =>
    rw [carryOut_effect hfails]
    exact ⟨hp, hc.noted .probe⟩

/-! ## Runs -/

/-- No changes wait, and the cache agrees with the rows. -/
def Settled (c : Connection) : Prop := c.pending = [] ∧ c.backend.Coherent

theorem database_maintains (seconds : Int) :
    (database (some seconds)).Maintains Settled fun _ c => c.backend.Coherent where
  lookup id _ hc := (lookup_ends hc.2 seconds id).mono
    (fun _ _ h => ⟨h.1.pending.trans hc.1, h.1.coherent⟩) fun _ _ h => h.coherent
  find s _ hc := find_ends hc.1 hc.2 s
  insert id s _ hc := insert_ends hc.1 hc.2 id s

/-- A task on a cache keeps coherence, however it ends. -/
theorem task_ends (seconds : Int) (t : Task) (hc : Settled c) :
    Ends ((t.on (database (some seconds))).perform c) (fun _ => Settled)
      fun _ c' => c'.backend.Coherent := by
  cases t with
  | lookup id => exact (database_maintains seconds).lookup id c hc
  | find s => exact (database_maintains seconds).find s c hc
  | insert id s => exact (database_maintains seconds).insert id s c hc
  | delete user image id =>
    exact (delete_ends hc.1 hc.2 seconds user image id).mono (fun _ _ h => ⟨h.1, h.2.1⟩)
      fun _ _ h => h
  | allocate length s ids =>
    have h := Database.allocate_ends (database_maintains seconds) (fun _ _ h => h.2) length s
      (p := (c, ids)) hc
    unfold Task.on
    rw [Action.perform_onPart]
    rcases hx : ((database (some seconds)).allocate length s).perform (c, ids) with ⟨_ | _, _⟩ <;>
      rw [hx] at h <;> exact h
  | probe => exact isHealthy_ends hc.1 hc.2

variable {b : Backend}

/-- Entries that run out leave a session to begin with. -/
theorem settled_session (hb : b.Coherent) (t : Turn) : Settled (t.session b) :=
  ⟨rfl, hb.unique, fun id text ht =>
    hb.written id text ⟨(Keyed.mem_without.mp ht.1).1, ht.2⟩⟩

theorem coherent_after_turn (hb : b.Coherent) {t : Turn} (ht : t.cache ≠ none) :
    (t.leaves b).Coherent := by
  obtain ⟨seconds, hcache⟩ := Option.ne_none_iff_exists'.mp ht
  have h := task_ends seconds t.task (settled_session hb t)
  unfold Turn.leaves Turn.play
  rw [hcache]
  rcases hx : (t.task.on (database (some seconds))).perform (t.session b) with ⟨_ | _, _⟩ <;>
    rw [hx] at h
  · exact h
  · exact h.2

/-- What is found under an id is decided by the rows. -/
theorem found_iff (hb : b.Coherent) (id : Text) (seconds : Int) (plan : Plan) (expired : List Text)
    {found : Option ShortUrl}
    (h : (Turn.play ⟨.lookup id, some seconds, plan, expired⟩ b).1 = .ok found) :
    found = none ↔ id ∉ Keyed.keys b.table := by
  let t : Turn := ⟨.lookup id, some seconds, plan, expired⟩
  have hends := lookup_ends (settled_session hb t).2 seconds id
  change (execute (lookup (some seconds) id) (t.session b)).1 = _ at h
  rcases hx : execute (lookup (some seconds) id) (t.session b) with ⟨x, c'⟩
  rw [hx] at hends h
  obtain rfl : x = .ok found := h
  exact hends.2.trans (Keyed.get?_eq_none_iff _ _)

/-- Erased rows leave none under their ids. -/
theorem not_mem_keys_erase {table : Store} (h : (Keyed.keys table).Nodup) {user image : Text}
    {id : Option Text} {row : Text × ShortUrl} (hrow : row ∈ table)
    (hdoomed : Store.isDoomed user image id row) :
    row.1 ∉ Keyed.keys (table.erase user image id) := by
  intro hmem
  obtain ⟨row', hrow', hid⟩ := List.mem_map.mp hmem
  obtain ⟨hrow', hstays⟩ := List.mem_filter.mp hrow'
  rw [List.inj_on_of_nodup_map h hrow' hrow hid, hdoomed] at hstays
  cases hstays

/-- After a deletion that ended with a count, none of its ids is found. -/
theorem not_found_after_deletion (hb : b.Coherent) {user image : Text} {id : Option Text}
    {seconds : Int} {plan : Plan} {expired : List Text} {count : Nat}
    (h : (Turn.play ⟨.delete user image id, some seconds, plan, expired⟩ b).1 = .ok count)
    {row : Text × ShortUrl} (hrow : row ∈ b.table) (hdoomed : Store.isDoomed user image id row) :
    let left := Turn.leaves ⟨.delete user image id, some seconds, plan, expired⟩ b
    left.Coherent ∧ row.1 ∉ Keyed.keys left.table := by
  let t : Turn := ⟨.delete user image id, some seconds, plan, expired⟩
  have hends := delete_ends rfl (settled_session hb t).2 seconds user image id
  change (execute (delete (some seconds) user image id) (t.session b)).1 = _ at h
  show (execute (delete (some seconds) user image id) (t.session b)).2.backend.Coherent ∧
    row.1 ∉ Keyed.keys (execute (delete (some seconds) user image id) (t.session b)).2.backend.table
  rcases hx : execute (delete (some seconds) user image id) (t.session b) with ⟨x, c'⟩
  rw [hx] at hends h
  obtain rfl : x = .ok count := h
  refine ⟨hends.2.1, ?_⟩
  rw [hends.2.2]
  exact not_mem_keys_erase hb.unique hrow hdoomed

/-- **Coherence.** After any run of operations beside caches, under any plan of failures, each
trusted entry is the written form of the row under its id (`Coherent`). Hence look-ups find the ids
that have rows, and none of those that a deletion has just counted. -/
theorem coherent_after_turns {turns : List Turn} (h : ∀ t ∈ turns, t.cache ≠ none) :
    (afterTurns turns .empty).Coherent ∧
    (∀ (id : Text) (seconds : Int) (plan : Plan) (expired : List Text) (found : Option ShortUrl),
      (Turn.play ⟨.lookup id, some seconds, plan, expired⟩ (afterTurns turns .empty)).1 =
        .ok found →
      (found = none ↔ id ∉ Keyed.keys (afterTurns turns .empty).table)) ∧
    ∀ (user image : Text) (id : Option Text) (seconds : Int) (plan : Plan) (expired : List Text)
      (count : Nat),
      (Turn.play ⟨.delete user image id, some seconds, plan, expired⟩
        (afterTurns turns .empty)).1 = .ok count →
      ∀ row ∈ (afterTurns turns .empty).table, Store.isDoomed user image id row →
      ∀ (seconds' : Int) (plan' : Plan) (expired' : List Text) (found : Option ShortUrl),
        (Turn.play ⟨.lookup row.1, some seconds', plan', expired'⟩
          (Turn.leaves ⟨.delete user image id, some seconds, plan, expired⟩
            (afterTurns turns .empty))).1 = .ok found → found = none := by
  have hb : (afterTurns turns .empty).Coherent :=
    afterTurns_induction Backend.coherent_empty fun t ht _ hb => coherent_after_turn hb (h t ht)
  refine ⟨hb, fun id seconds plan expired found => found_iff hb id seconds plan expired, ?_⟩
  intro user image id seconds plan expired count hcount row hrow hdoomed seconds' plan' expired'
    found hfound
  obtain ⟨hleft, hgone⟩ := not_found_after_deletion hb hcount hrow hdoomed
  exact (found_iff hleft row.1 seconds' plan' expired' hfound).mpr hgone

/-- A row is stored and looked up, and deleted while the cache cannot be reached. -/
def deletedUnreached : List Turn :=
  [⟨.insert "a".toList ⟨"u".toList, "i".toList, none, []⟩, some 60, .never, []⟩,
    ⟨.lookup "a".toList, some 60, .never, []⟩,
    ⟨.delete "u".toList "i".toList none, some 60, .first fun k => if k = .delete then 6 else 0, []⟩]

/-- The entry of a row that is gone may stay, but it is not trusted. -/
theorem coherent_after_turns_unreached :
    (∀ t ∈ deletedUnreached, t.cache ≠ none) ∧ (afterTurns deletedUnreached .empty).Coherent ∧
      (afterTurns deletedUnreached .empty).table.isEmpty = true ∧
      (afterTurns deletedUnreached .empty).cache.length = 1 ∧
      (afterTurns deletedUnreached .empty).distrusted = ["a".toList] := by
  have h : ∀ t ∈ deletedUnreached, t.cache ≠ none := by simp [deletedUnreached]
  exact ⟨h, (coherent_after_turns h).1, by decide +kernel, by decide +kernel, by decide +kernel⟩

end AliasGate.Storage
