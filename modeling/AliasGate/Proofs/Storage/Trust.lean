import AliasGate.Proofs.Storage.Execution

/-!
# Trusted cache entries

A cache entry counts only while its id is trusted. Evictions may fail, and yet the trusted entries
are known after each of them.

* `Backend.Trusts b id text`: the cache holds a text for an id, and the id is trusted.
* `Backend.Narrowed b ids b'`: the rows are the same, and what is trusted in `b'` was trusted in `b`
  and is none of the ids.
* `deleteEntries_ends`: what attempts to delete entries do (`Attempted`), and that they never fail.
* `exists_evicted`: all that an eviction changes (`Evicted`). Whether or not it succeeds, it narrows
  by its ids.
* `trustedCache_ends`: a look-up goes to the cache only with a trusted id.
-/

namespace AliasGate.Storage

open AliasGate.Action (Ends)
open Connection

/-- The cache holds a text for an id whose entry is trusted. -/
def Backend.Trusts (b : Backend) (id text : Text) : Prop :=
  (cacheKey id, text) ∈ b.cache ∧ id ∉ b.distrusted

/-- The same rows, and no trusted entries but those that were trusted before, without those of the
ids. -/
structure Backend.Narrowed (b : Backend) (ids : List Text) (b' : Backend) : Prop where
  table : b'.table = b.table
  trusts : ∀ id text, b'.Trusts id text → b.Trusts id text ∧ id ∉ ids

namespace Backend.Narrowed

variable {b b' : Backend} {ids : List Text}

theorem refl (b : Backend) : b.Narrowed [] b := ⟨rfl, fun _ _ h => ⟨h, List.not_mem_nil⟩⟩

theorem weaken (h : b.Narrowed ids b') : b.Narrowed [] b' :=
  ⟨h.table, fun id text ht => ⟨(h.trusts id text ht).1, List.not_mem_nil⟩⟩

end Backend.Narrowed

/-- What a command notes of itself is neither row nor entry. -/
theorem narrowed_noted (c : Connection) (cmd : Command) :
    c.backend.Narrowed [] (c.noted cmd).backend :=
  ⟨rfl, (Backend.Narrowed.refl c.backend).trusts⟩

theorem cacheKey_injective {id id' : Text} (h : cacheKey id = cacheKey id') : id = id' :=
  List.append_cancel_left h

theorem mem_map_cacheKey {ids : List Text} {id : Text} :
    cacheKey id ∈ ids.map cacheKey ↔ id ∈ ids := by
  refine ⟨fun h => ?_, List.mem_map_of_mem⟩
  obtain ⟨other, hother, hkey⟩ := List.mem_map.mp h
  exact cacheKey_injective hkey ▸ hother

/-! ## Eviction -/

/-- The ids that are not trusted once some more are distrusted. -/
theorem mem_distrusting {old ids : List Text} {id : Text} :
    id ∈ old ++ (ids.filter (· ∉ old)).eraseDups ↔ id ∈ old ∨ id ∈ ids := by
  simp only [List.mem_append, List.mem_eraseDups, List.mem_filter, decide_eq_true_eq]
  by_cases hold : id ∈ old <;> simp [hold]

/-- What at most so many attempts to delete entries do: in the end the entries are gone or they are
all still there, and the attempts are noted. Rows stay as they are, and so do the ids that are not
trusted and the plan for commands of other kinds. -/
structure Attempted (keys : List Text) (attempts : Nat) (gone : Bool) (c c' : Connection) :
    Prop where
  pending : c'.pending = c.pending
  table : c'.backend.table = c.backend.table
  distrusted : c'.backend.distrusted = c.backend.distrusted
  cache : c'.backend.cache =
    if gone then Keyed.without c.backend.cache keys else c.backend.cache
  plan : ∀ k, k ≠ .delete → c'.backend.plan k = c.backend.plan k
  log : ∃ notes, c'.log = c.log ++ notes ∧ notes.length ≤ attempts ∧
    ∀ note ∈ notes, note.1 = .cacheDelete keys

/-- Attempts to delete entries end, whatever fails. -/
theorem deleteEntries_ends (keys : List Text) (attempts : Nat) (c : Connection) :
    Ends (execute (deleteEntries keys attempts) c)
      (fun gone c' => Attempted keys attempts gone c c') fun _ _ => False := by
  induction attempts generalizing c with
  | zero => exact ⟨rfl, rfl, rfl, rfl, fun _ _ => rfl, [], by simp⟩
  | succ attempts ih =>
    unfold deleteEntries
    rw [execute_bind, execute_give, Action.andThen_ok, perform_run]
    have hplan : ∀ k, k ≠ .delete →
        (c.noted (.cacheDelete keys)).backend.plan k = c.backend.plan k := fun k hk => if_neg hk
    cases hfails : c.failsNext (.cacheDelete keys) with
    | true =>
      rw [carryOut_failed hfails]
      refine (ih (c.noted (.cacheDelete keys))).mono (fun gone c' h => ?_) fun _ _ h => h
      obtain ⟨notes, hlog, hlength, hnotes⟩ := h.log
      refine ⟨h.pending, h.table, h.distrusted, h.cache,
        fun k hk => (h.plan k hk).trans (hplan k hk), (.cacheDelete keys, true) :: notes, ?_, ?_,
        ?_⟩
      · rw [hlog, noted_log, hfails, List.append_assoc, List.singleton_append]
      · exact Nat.succ_le_succ hlength
      · exact List.forall_mem_cons.mpr ⟨rfl, hnotes⟩
    | false =>
      rw [carryOut_cacheDelete hfails]
      refine ⟨rfl, rfl, rfl, rfl, hplan, [(.cacheDelete keys, false)], ?_, ?_, ?_⟩
      · show c.log ++ [(_, c.failsNext _)] = _
        rw [hfails]
      · simp
      · simp

/-- The entries of all other ids are as they were, and these ids are trusted as they were. -/
structure Backend.Spares (b : Backend) (ids : List Text) (b' : Backend) : Prop where
  entry : ∀ id ∉ ids, Keyed.get? b'.cache (cacheKey id) = Keyed.get? b.cache (cacheKey id)
  trust : ∀ id ∉ ids, id ∈ b'.distrusted ↔ id ∈ b.distrusted

theorem Backend.Spares.trans {b b' b'' : Backend} {ids : List Text} (h : b.Spares ids b')
    (h' : b'.Spares ids b'') : b.Spares ids b'' :=
  ⟨fun id hid => (h'.entry id hid).trans (h.entry id hid),
    fun id hid => (h'.trust id hid).trans (h.trust id hid)⟩

/-- All that an eviction changes. Whether or not the entries could be deleted, afterwards no entry
of the ids is trusted, and no other that was not. -/
structure Evicted (cache : Option Int) (ids : List Text) (gone : Bool) (c c' : Connection) :
    Prop where
  pending : c'.pending = c.pending
  table : c'.backend.table = c.backend.table
  plan : ∀ k, k ≠ .delete → c'.backend.plan k = c.backend.plan k
  log : ∃ notes, c'.log = c.log ++ notes ∧ notes.length ≤ evictionAttempts ∧
    ∀ note ∈ notes, note.1 = .cacheDelete (ids.map cacheKey)
  spares : c.backend.Spares ids c'.backend
  still : cache = none → c' = c
  narrowed : cache ≠ none → c.backend.Narrowed ids c'.backend
  unseen : cache ≠ none → ∀ id ∈ ids,
    cacheKey id ∉ Keyed.keys c'.backend.cache ∨ id ∈ c'.backend.distrusted
  trusted : cache ≠ none → gone = true → ∀ id ∈ ids, id ∉ c'.backend.distrusted

section

variable {cache : Option Int} {ids : List Text} {c c' : Connection}

/-- Nothing is changed if there is no cache, or nothing to evict. -/
theorem evicted_nothing (h : cache = none ∨ ids = []) (c : Connection) :
    Evicted cache ids true c c := by
  have hids : cache ≠ none → ∀ id, id ∉ ids := fun hcache => by
    simp [h.resolve_left hcache]
  exact
    { pending := rfl
      table := rfl
      plan := fun _ _ => rfl
      log := ⟨[], by simp⟩
      spares := ⟨fun _ _ => rfl, fun _ _ => Iff.rfl⟩
      still := fun _ => rfl
      narrowed := fun hcache => ⟨rfl, fun id _ ht => ⟨ht, hids hcache id⟩⟩
      unseen := fun hcache id hid => absurd hid (hids hcache id)
      trusted := fun hcache _ id hid => absurd hid (hids hcache id) }

/-- The entries are gone, and their ids are trusted again. -/
theorem Attempted.trusting (h : Attempted (ids.map cacheKey) evictionAttempts true c c')
    (hsome : cache ≠ none) :
    Evicted cache ids true c (c'.mapDistrusted fun old => old.filter (· ∉ ids)) := by
  have hcache : c'.backend.cache = Keyed.without c.backend.cache (ids.map cacheKey) := h.cache
  have hdistrusted : ∀ id, id ∈ c'.backend.distrusted.filter (· ∉ ids) ↔
      id ∈ c.backend.distrusted ∧ id ∉ ids := by
    simp [h.distrusted]
  refine
    { pending := h.pending
      table := h.table
      plan := h.plan
      log := h.log
      spares := ⟨fun id hid => ?_, fun id hid => ?_⟩
      still := fun hnone => absurd hnone hsome
      narrowed := fun _ => ⟨h.table, fun id text ht => ?_⟩
      unseen := fun _ id hid => .inl ?_
      trusted := fun _ _ id hid hold => ?_ }
  · show Keyed.get? c'.backend.cache _ = _
    rw [hcache, Keyed.get?_without, if_neg (mt mem_map_cacheKey.mp hid)]
  · exact (hdistrusted id).trans (and_iff_left hid)
  · obtain ⟨hmem, hid⟩ : (cacheKey id, text) ∈ c'.backend.cache ∧ _ := ht
    rw [hcache, Keyed.mem_without] at hmem
    have hids : id ∉ ids := mt mem_map_cacheKey.mpr hmem.2
    exact ⟨⟨hmem.1, fun hold => hid ((hdistrusted id).mpr ⟨hold, hids⟩)⟩, hids⟩
  · show _ ∉ Keyed.keys c'.backend.cache
    rw [← Keyed.get?_eq_none_iff, hcache, Keyed.get?_without, if_pos (mem_map_cacheKey.mpr hid)]
  · exact ((hdistrusted id).mp hold).2 hid

/-- Every attempt failed: the entries are still there, and their ids are distrusted instead. -/
theorem Attempted.distrusting (h : Attempted (ids.map cacheKey) evictionAttempts false c c')
    (hsome : cache ≠ none) :
    Evicted cache ids false c
      (c'.mapDistrusted fun old => old ++ (ids.filter (· ∉ old)).eraseDups) := by
  have hcache : c'.backend.cache = c.backend.cache := h.cache
  have hdistrusted : ∀ id, id ∈ c'.backend.distrusted ++
      (ids.filter (· ∉ c'.backend.distrusted)).eraseDups ↔
      id ∈ c.backend.distrusted ∨ id ∈ ids := fun _ => h.distrusted ▸ mem_distrusting
  refine
    { pending := h.pending
      table := h.table
      plan := h.plan
      log := h.log
      spares := ⟨fun id _ => ?_, fun id hid => ?_⟩
      still := fun hnone => absurd hnone hsome
      narrowed := fun _ => ⟨h.table, fun id text ht => ?_⟩
      unseen := fun _ id hid => .inr ?_
      trusted := nofun }
  · exact congrArg (Keyed.get? · (cacheKey id)) hcache
  · exact (hdistrusted id).trans (or_iff_left hid)
  · obtain ⟨hmem, hid⟩ : (cacheKey id, text) ∈ c'.backend.cache ∧ _ := ht
    obtain ⟨hold, hids⟩ := not_or.mp (mt (hdistrusted id).mpr hid)
    exact ⟨⟨hcache ▸ hmem, hold⟩, hids⟩
  · exact (hdistrusted id).mpr (.inr hid)

end

/-- **Evictions** end with a yes or a no, whatever fails. -/
theorem exists_evicted (cache : Option Int) (ids : List Text) (c : Connection) :
    ∃ gone c', execute (evict cache ids) c = (.ok gone, c') ∧ Evicted cache ids gone c c' := by
  unfold evict
  by_cases hnothing : cache = none ∨ ids = []
  · rw [if_pos hnothing]
    exact ⟨true, c, rfl, evicted_nothing hnothing c⟩
  have hsome : cache ≠ none := fun hnone => hnothing (.inl hnone)
  rw [if_neg hnothing, execute_bind]
  have hends := deleteEntries_ends (ids.map cacheKey) evictionAttempts c
  generalize execute (deleteEntries (ids.map cacheKey) evictionAttempts) c = x at hends ⊢
  rcases x with ⟨_ | _ | _, c'⟩
  · exact hends.elim
  · exact ⟨false, _, rfl, Attempted.distrusting hends hsome⟩
  · exact ⟨true, _, rfl, Attempted.trusting hends hsome⟩

/-- A look-up is given the cache only if the id is trusted by then. -/
theorem trustedCache_ends (seconds : Int) (id : Text) (c : Connection) :
    Ends (execute (trustedCache (some seconds) id) c)
      (fun cache c' => c'.pending = c.pending ∧ c.backend.Narrowed [] c'.backend ∧
        (cache = none ∨ cache = some seconds ∧ id ∉ c'.backend.distrusted))
      fun _ _ => False := by
  show Ends (execute (if id ∈ c.backend.distrusted then _ else _) c) _ _
  split
  · obtain ⟨gone, c', hrun, hevicted⟩ := exists_evicted (some seconds) [id] c
    have hnarrowed := (hevicted.narrowed nofun).weaken
    rw [execute_bind, hrun, Action.andThen_ok]
    cases gone with
    | false => exact ⟨hevicted.pending, hnarrowed, .inl rfl⟩
    | true =>
      have htrusted := hevicted.trusted nofun rfl id List.mem_cons_self
      exact ⟨hevicted.pending, hnarrowed, .inr ⟨rfl, htrusted⟩⟩
  · next hid => exact ⟨rfl, Backend.Narrowed.refl _, .inr ⟨rfl, hid⟩⟩

end AliasGate.Storage
