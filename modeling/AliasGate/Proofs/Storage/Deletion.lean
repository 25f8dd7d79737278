import AliasGate.Proofs.Storage.Trust
import Mathlib.Tactic.SplitIfs

/-!
# Deletions beside a cache

What a deletion of rows does, whichever of its commands fail and whether or not there is a cache.

* `Evicted.failsNext`, `Evicted.tableLog`: commands to the table see nothing of an eviction.
* `Deletion`: the five endings of a deletion.
* `Deletion.outcome`: result, rows and commands to the table are those of `deletionOutcome`, which
  knows of no cache.
* `delete_overlooks_cache`: failing evictions do not show in the result of a deletion, nor in the
  rows, and no entry of a deleted row is trusted after it.
-/

namespace AliasGate.Storage

open Connection

/-! ## Commands given -/

/-- The command deletes cache entries. -/
def isEviction (note : Command × Bool) : Bool := note.1.kind? = some .delete

namespace Connection

/-- The commands that were given, without those that delete cache entries. -/
def tableLog (c : Connection) : List (Command × Bool) := c.log.filter (!isEviction ·)

/-- How many commands to delete cache entries were given. -/
def evictions (c : Connection) : Nat := c.log.countP isEviction

theorem mem_tableLog (cmd : Command) (hcmd : cmd.kind? ≠ some .delete) {failed : Bool}
    {c : Connection} : (cmd, failed) ∈ c.tableLog ↔ (cmd, failed) ∈ c.log := by
  simp [tableLog, isEviction, hcmd]

theorem tableLog_noted (cmd : Command) (hcmd : cmd.kind? ≠ some .delete) (c : Connection) :
    (c.noted cmd).tableLog = c.tableLog ++ [(cmd, c.failsNext cmd)] := by
  simp [tableLog, List.filter_append, isEviction, hcmd]

theorem evictions_noted (cmd : Command) (hcmd : cmd.kind? ≠ some .delete) (c : Connection) :
    (c.noted cmd).evictions = c.evictions := by
  simp [evictions, isEviction, hcmd]

/-- The connection after rows are erased, which waits to be committed. -/
def erased (c : Connection) (s : Selection) : Connection :=
  { c.noted (.erase s) with pending := c.pending ++ [.erase s] }

/-- The connection after a commit that left a table. -/
def committed (c : Connection) (table : Store) : Connection :=
  { c.noted .commit with
    backend := { (c.noted .commit).backend with table := table }
    pending := [] }

theorem tableLog_rolledBack (c : Connection) :
    c.rolledBack.tableLog = c.tableLog ++ [(.rollback, false)] := tableLog_noted .rollback nofun c

theorem tableLog_erased (c : Connection) (s : Selection) :
    (c.erased s).tableLog = c.tableLog ++ [(.erase s, c.failsNext (.erase s))] :=
  tableLog_noted (.erase s) nofun c

theorem tableLog_committed (c : Connection) (table : Store) :
    (c.committed table).tableLog = c.tableLog ++ [(.commit, c.failsNext .commit)] :=
  tableLog_noted .commit nofun c

end Connection

/-! ## Evictions -/

section

variable {cache : Option Int} {ids : List Text} {gone : Bool} {c c' : Connection}

theorem Evicted.failsNext (h : Evicted cache ids gone c c') (cmd : Command)
    (hcmd : cmd.kind? ≠ some .delete) : c'.failsNext cmd = c.failsNext cmd := by
  unfold Connection.failsNext
  cases hkind : cmd.kind? with
  | none => rfl
  | some k =>
    have hk : k ≠ .delete := fun hk => hcmd (hk ▸ hkind)
    simp only [Option.any_some, Plan.failsNext, h.plan k hk]

theorem Evicted.tableLog (h : Evicted cache ids gone c c') : c'.tableLog = c.tableLog := by
  obtain ⟨notes, hlog, -, hnotes⟩ := h.log
  have hnone : notes.filter (!isEviction ·) = [] :=
    List.filter_eq_nil_iff.mpr fun note hnote => by
      simp [isEviction, hnotes note hnote, Command.kind?]
  rw [Connection.tableLog, hlog, List.filter_append, hnone, List.append_nil]
  rfl

theorem Evicted.evictions_le (h : Evicted cache ids gone c c') :
    c'.evictions ≤ c.evictions + evictionAttempts := by
  obtain ⟨notes, hlog, hlength, -⟩ := h.log
  have hcount : notes.countP isEviction ≤ notes.length := List.countP_le_length
  rw [evictions, hlog, List.countP_append]
  exact Nat.add_le_add_left (Nat.le_trans hcount hlength) _

end

/-! ## Endings -/

/-- The endings of a deletion of selected rows, with ids and a table of kept rows. -/
inductive Deletion (cache : Option Int) (s : Selection) (ids : List Text) (kept : Store)
    (c : Connection) : Except Fault Nat × Connection → Prop
  | unselected (hselect : c.failsNext (.select s) = true) :
    Deletion cache s ids kept c (.error (planned (.select s)), (c.noted (.select s)).rolledBack)
  | nothing (hselect : c.failsNext (.select s) = false) (hnone : ids = []) :
    Deletion cache s ids kept c (.ok 0, c.noted (.select s))
  | unerased {gone : Bool} {c₁ : Connection}
    (hselect : c.failsNext (.select s) = false) (hsome : ids ≠ [])
    (hevicted : Evicted cache ids gone (c.noted (.select s)) c₁)
    (herase : c₁.failsNext (.erase s) = true) :
    Deletion cache s ids kept c (.error (planned (.erase s)), (c₁.noted (.erase s)).rolledBack)
  | uncommitted {gone : Bool} {c₁ : Connection}
    (hselect : c.failsNext (.select s) = false) (hsome : ids ≠ [])
    (hevicted : Evicted cache ids gone (c.noted (.select s)) c₁)
    (herase : c₁.failsNext (.erase s) = false)
    (hcommit : (c₁.erased s).failsNext .commit = true) :
    Deletion cache s ids kept c
      (.error (planned .commit), ((c₁.erased s).noted .commit).rolledBack)
  | done {gone again : Bool} {c₁ c₂ : Connection}
    (hselect : c.failsNext (.select s) = false) (hsome : ids ≠ [])
    (hevicted : Evicted cache ids gone (c.noted (.select s)) c₁)
    (herase : c₁.failsNext (.erase s) = false)
    (hcommit : (c₁.erased s).failsNext .commit = false)
    (hagain : Evicted cache ids again ((c₁.erased s).committed kept) c₂) :
    Deletion cache s ids kept c (.ok ids.length, c₂)

section

variable (user image : Text) (id : Option Text)

/-- The ids of the rows that are to be deleted. -/
def doomedIds (table : Store) : List Text :=
  Keyed.keys (table.filter (Store.isDoomed user image id))

theorem length_doomedIds (table : Store) :
    (doomedIds user image id table).length = table.eraseCount user image id := by
  rw [doomedIds, Keyed.keys, List.length_map, Store.eraseCount, List.countP_eq_length_filter]

theorem erase_of_doomedIds_nil {table : Store} (h : doomedIds user image id table = []) :
    table.erase user image id = table := by
  refine List.filter_eq_self.mpr fun row hrow => ?_
  have hkept := List.filter_eq_nil_iff.mp (List.map_eq_nil_iff.mp h) row hrow
  simpa using hkept

/-- A deletion before which no changes wait has one of these endings. -/
theorem delete_deletion (cache : Option Int) (c : Connection) (hpending : c.pending = []) :
    Deletion cache (.ofImage user image id) (doomedIds user image id c.backend.table)
      (c.backend.table.erase user image id) c (execute (delete cache user image id) c) := by
  have hrows : (Selection.ofImage user image id).holds = Store.isDoomed user image id :=
    funext (holds_ofImage user image id)
  unfold delete
  rw [execute_bind]
  generalize hs : Selection.ofImage user image id = s at hrows ⊢
  cases hselect : c.failsNext (.select s) with
  | true =>
    rw [execute_demandOrRollback_failure (carryOut_failed hselect)]
    exact .unselected hselect
  | false =>
  rw [execute_demandOrRollback_ok (carryOut_select hselect), Action.andThen_ok, perform_run, hrows]
  generalize hids : doomedIds user image id c.backend.table = ids
  have hids' : (c.backend.table.filter (Store.isDoomed user image id)).map (·.1) = ids := hids
  rw [hids']
  by_cases hnone : ids = []
  · rw [if_pos hnone]
    exact .nothing hselect hnone
  obtain ⟨gone, c₁, hrun, hevicted⟩ := exists_evicted cache ids (c.noted (.select s))
  rw [if_neg hnone, execute_bind, hrun, Action.andThen_ok, perform_run, execute_bind]
  cases herase : c₁.failsNext (.erase s) with
  | true =>
    rw [execute_demandOrRollback_failure (carryOut_failed herase)]
    exact .unerased hselect hnone hevicted herase
  | false =>
  have herased : c₁.carryOut (.erase s) = (.ok (), c₁.erased s) := carryOut_erase herase
  rw [execute_demandOrRollback_ok herased, Action.andThen_ok, perform_run, execute_bind]
  cases hcommit : (c₁.erased s).failsNext .commit with
  | true =>
    rw [execute_demandOrRollback_failure (carryOut_failed hcommit)]
    exact .uncommitted hselect hnone hevicted herase hcommit
  | false =>
  have hwaiting : ((c₁.erased s).noted .commit).pending = [.erase s] := by
    show c₁.pending ++ [.erase s] = [.erase s]
    rw [hevicted.pending, noted_pending, hpending, List.nil_append]
  have hkept : applyChange ((c₁.erased s).noted .commit).backend.table (.erase s) =
      .ok (c.backend.table.erase user image id) := by
    show Except.ok (c₁.backend.table.filter fun row => !s.holds row) = _
    rw [hevicted.table, noted_table, hrows]
    rfl
  have hcommitted : (c₁.erased s).carryOut .commit =
      (.ok (), (c₁.erased s).committed (c.backend.table.erase user image id)) :=
    (carryOut_commit hcommit).trans (commit_ok hwaiting hkept)
  rw [execute_demandOrRollback_ok hcommitted, Action.andThen_ok, perform_run, execute_bind]
  obtain ⟨again, c₂, hrun, hagain⟩ := exists_evicted cache ids
    ((c₁.erased s).committed (c.backend.table.erase user image id))
  rw [hrun, Action.andThen_ok]
  exact .done hselect hnone hevicted herase hcommit hagain

end

/-! ## What a deletion tells -/

section

variable {cache : Option Int} {s : Selection} {ids : List Text} {kept : Store} {b : Backend}
  {x : Except Fault Nat × Connection}

/-- Result, table and commands to the table of a deletion, by the plan for these commands. -/
def deletionOutcome (s : Selection) (ids : List Text) (kept : Store) (b : Backend) :
    Except Fault Nat × Store × List (Command × Bool) :=
  if b.plan.failsNext .execute then
    (.error (planned (.select s)), b.table, [(.select s, true), (.rollback, false)])
  else if ids = [] then (.ok 0, b.table, [(.select s, false)])
  else if (b.plan.after .execute).failsNext .execute then
    (.error (planned (.erase s)), b.table,
      [(.select s, false), (.erase s, true), (.rollback, false)])
  else if b.plan.failsNext .commit then
    (.error (planned .commit), b.table,
      [(.select s, false), (.erase s, false), (.commit, true), (.rollback, false)])
  else (.ok ids.length, kept, [(.select s, false), (.erase s, false), (.commit, false)])

/-- The outcome is a fault exactly if a command to the table fails, and then that command's. -/
theorem deletionOutcome_error_iff {fault : Fault} :
    (deletionOutcome s ids kept b).1 = .error fault ↔
      ∃ cmd, (cmd, true) ∈ (deletionOutcome s ids kept b).2.2 ∧
        (cmd.kind? = some .execute ∨ cmd.kind? = some .commit) ∧ fault = planned cmd := by
  unfold deletionOutcome
  split_ifs <;> simp [Command.kind?, eq_comm]

/-- Of an outcome with a count: the rows are gone, and nothing is taken back. -/
theorem deletionOutcome_ok {count : Nat} (h : (deletionOutcome s ids kept b).1 = .ok count) :
    count = ids.length ∧
      (deletionOutcome s ids kept b).2.1 = (if ids = [] then b.table else kept) ∧
      (.rollback, false) ∉ (deletionOutcome s ids kept b).2.2 := by
  unfold deletionOutcome at h ⊢
  split_ifs at h ⊢ with hselect hnone herase hcommit
  · obtain rfl := Except.ok.inj h
    exact ⟨by rw [hnone]; rfl, rfl, by simp⟩
  · obtain rfl := Except.ok.inj h
    exact ⟨rfl, rfl, by simp⟩

/-- Of an outcome with a fault: all rows are kept, and changes are taken back once. -/
theorem deletionOutcome_error {fault : Fault}
    (h : (deletionOutcome s ids kept b).1 = .error fault) :
    (deletionOutcome s ids kept b).2.1 = b.table ∧
      (deletionOutcome s ids kept b).2.2.count (.rollback, false) = 1 := by
  unfold deletionOutcome at h ⊢
  split_ifs at h ⊢ <;> exact ⟨rfl, rfl⟩

/-- **What a deletion tells** is decided by the table and by the plan for commands to it. -/
theorem Deletion.outcome (h : Deletion cache s ids kept (begin b) x) :
    x.1 = (deletionOutcome s ids kept b).1 ∧
      x.2.backend.table = (deletionOutcome s ids kept b).2.1 ∧
      x.2.tableLog = (deletionOutcome s ids kept b).2.2 := by
  have hselected : (begin b).failsNext (.select s) = b.plan.failsNext .execute := rfl
  have hlog : ((begin b).noted (.select s)).tableLog =
      [(.select s, (begin b).failsNext (.select s))] := tableLog_noted (.select s) nofun (begin b)
  -- evictions leave the plan for the commands to the table as it was
  have herased : ∀ {gone c₁}, Evicted cache ids gone ((begin b).noted (.select s)) c₁ →
      c₁.failsNext (.erase s) = (b.plan.after .execute).failsNext .execute :=
    fun h => h.failsNext (.erase s) nofun
  have hcommitted : ∀ {gone c₁}, Evicted cache ids gone ((begin b).noted (.select s)) c₁ →
      (c₁.erased s).failsNext .commit = b.plan.failsNext .commit :=
    fun h => h.failsNext .commit nofun
  unfold deletionOutcome
  cases h with
  | unselected hselect =>
    rw [← hselected, hselect, if_pos rfl, tableLog_rolledBack, hlog, hselect]
    exact ⟨rfl, rfl, rfl⟩
  | nothing hselect hnone =>
    rw [← hselected, hselect, if_neg Bool.false_ne_true, if_pos hnone, hlog, hselect]
    exact ⟨rfl, rfl, rfl⟩
  | unerased hselect hsome hevicted herase =>
    rw [← hselected, hselect, ← herased hevicted, herase, if_neg Bool.false_ne_true, if_neg hsome,
      if_pos rfl, tableLog_rolledBack, tableLog_noted (.erase s) nofun, hevicted.tableLog, hlog,
      hselect, herase]
    exact ⟨rfl, hevicted.table, rfl⟩
  | uncommitted hselect hsome hevicted herase hcommit =>
    rw [← hselected, hselect, ← herased hevicted, herase, ← hcommitted hevicted, hcommit,
      if_neg Bool.false_ne_true, if_neg hsome, if_neg Bool.false_ne_true, if_pos rfl,
      tableLog_rolledBack, tableLog_noted .commit nofun, tableLog_erased, hevicted.tableLog, hlog,
      hselect, herase, hcommit]
    exact ⟨rfl, hevicted.table, rfl⟩
  | done hselect hsome hevicted herase hcommit hagain =>
    rw [← hselected, hselect, ← herased hevicted, herase, ← hcommitted hevicted, hcommit,
      if_neg Bool.false_ne_true, if_neg hsome, if_neg Bool.false_ne_true, if_neg Bool.false_ne_true,
      hagain.tableLog, tableLog_committed, tableLog_erased, hevicted.tableLog, hlog, hselect,
      herase, hcommit]
    exact ⟨rfl, hagain.table, rfl⟩

/-- At most two evictions are attempted, and none if there is no row to delete. -/
theorem Deletion.evictions_le (h : Deletion cache s ids kept (begin b) x) :
    x.2.evictions ≤ 2 * evictionAttempts ∧ (ids = [] → x.2.evictions = 0) := by
  have hzero : ((begin b).noted (.select s)).evictions = 0 :=
    evictions_noted (.select s) nofun (begin b)
  have hfirst : ∀ {gone c₁}, Evicted cache ids gone ((begin b).noted (.select s)) c₁ →
      c₁.evictions ≤ evictionAttempts := fun h => by simpa [hzero] using h.evictions_le
  have hback : ∀ c : Connection, c.rolledBack.evictions = c.evictions :=
    evictions_noted .rollback nofun
  have herased : ∀ c : Connection, (c.erased s).evictions = c.evictions :=
    evictions_noted (.erase s) nofun
  have hcommitted : ∀ c : Connection, (c.committed kept).evictions = c.evictions :=
    evictions_noted .commit nofun
  cases h with
  | unselected =>
    rw [hback, hzero]
    exact ⟨Nat.zero_le _, fun _ => rfl⟩
  | nothing =>
    rw [hzero]
    exact ⟨Nat.zero_le _, fun _ => rfl⟩
  | unerased _ hsome hevicted =>
    rw [hback, evictions_noted (.erase s) nofun]
    exact ⟨Nat.le_trans (hfirst hevicted) (by decide), fun h => absurd h hsome⟩
  | uncommitted _ hsome hevicted =>
    rw [hback, evictions_noted .commit nofun, herased]
    exact ⟨Nat.le_trans (hfirst hevicted) (by decide), fun h => absurd h hsome⟩
  | @done _ _ c₁ c₂ _ hsome hevicted _ _ hagain =>
    have hsecond := hagain.evictions_le
    rw [hcommitted, herased] at hsecond
    have hsum : c₂.evictions ≤ 2 * evictionAttempts := by
      have := hfirst hevicted
      omega
    exact ⟨hsum, fun h => absurd h hsome⟩

/-- Entries of other ids are as they were, and so is the trust in them. -/
theorem Deletion.spares (h : Deletion cache s ids kept (begin b) x) :
    b.Spares ids x.2.backend := by
  cases h with
  | unselected => exact ⟨fun _ _ => rfl, fun _ _ => Iff.rfl⟩
  | nothing => exact ⟨fun _ _ => rfl, fun _ _ => Iff.rfl⟩
  | unerased _ _ hevicted => exact ⟨hevicted.spares.entry, hevicted.spares.trust⟩
  | uncommitted _ _ hevicted => exact ⟨hevicted.spares.entry, hevicted.spares.trust⟩
  | @done _ _ c₁ c₂ _ _ hevicted _ _ hagain =>
    have hfirst : b.Spares ids c₁.backend := ⟨hevicted.spares.entry, hevicted.spares.trust⟩
    have hsecond : c₁.backend.Spares ids c₂.backend := ⟨hagain.spares.entry, hagain.spares.trust⟩
    exact hfirst.trans hsecond

/-- A deletion that ends with a count leaves no entry of the ids that would be trusted. -/
theorem Deletion.unseen (h : Deletion cache s ids kept (begin b) x) (hcache : cache ≠ none)
    {count : Nat} (hok : x.1 = .ok count) : ∀ id ∈ ids,
      cacheKey id ∉ Keyed.keys x.2.backend.cache ∨ id ∈ x.2.backend.distrusted := by
  cases h with
  | unselected => cases hok
  | nothing _ hnone =>
    subst hnone
    exact fun id hid => absurd hid List.not_mem_nil
  | unerased => cases hok
  | uncommitted => cases hok
  | done _ _ _ _ _ hagain => exact hagain.unseen hcache

/-- No changes wait after a deletion. -/
theorem Deletion.pending (h : Deletion cache s ids kept (begin b) x) : x.2.pending = [] := by
  cases h with
  | unselected => rfl
  | nothing => rfl
  | unerased => rfl
  | uncommitted => rfl
  | done _ _ _ _ _ hagain => exact hagain.pending

end

/-- **Deletions beside a cache.** `delete (some seconds)` ends as `delete none` does, with the same
table and the same commands to it. It fails exactly where an `.execute` or `.commit` does, evicts at
most six times, leaves no trusted entry of a deleted row, and keeps the entries of all other ids. -/
theorem delete_overlooks_cache (b : Backend) (seconds : Int) (user image : Text)
    (id : Option Text) :
    let ending := execute (delete (some seconds) user image id) (begin b)
    let uncached := execute (delete none user image id) (begin b)
    let doomed := doomedIds user image id b.table
    let left := ending.2.backend
    (ending.1 = uncached.1 ∧ left.table = uncached.2.backend.table ∧
      ending.2.tableLog = uncached.2.tableLog) ∧
    (∀ count, ending.1 = .ok count →
      count = doomed.length ∧ left.table = b.table.erase user image id ∧
      (.rollback, false) ∉ ending.2.log) ∧
    (∀ fault, ending.1 = .error fault ↔ ∃ cmd, (cmd, true) ∈ ending.2.log ∧
      (cmd.kind? = some .execute ∨ cmd.kind? = some .commit) ∧ fault = planned cmd) ∧
    (∀ fault, ending.1 = .error fault →
      (∃ f, fault = .failure f ∧ f.kind = .database) ∧ left.table = b.table ∧
      ending.2.pending = [] ∧ ending.2.log.count (.rollback, false) = 1) ∧
    ending.2.evictions ≤ 6 ∧ (doomed = [] → ending.2.evictions = 0) ∧
    (∀ count, ending.1 = .ok count → ∀ id ∈ doomed,
      cacheKey id ∉ Keyed.keys left.cache ∨ id ∈ left.distrusted) ∧
    ∀ id ∉ doomed,
      Keyed.get? left.cache (cacheKey id) = Keyed.get? b.cache (cacheKey id) ∧
      (id ∈ left.distrusted ↔ id ∈ b.distrusted) := by
  intro ending uncached doomed left
  have hending : Deletion (some seconds) (.ofImage user image id) doomed
      (b.table.erase user image id) (begin b) ending :=
    delete_deletion user image id (some seconds) (begin b) rfl
  have huncached : Deletion none (.ofImage user image id) doomed
      (b.table.erase user image id) (begin b) uncached :=
    delete_deletion user image id none (begin b) rfl
  obtain ⟨hresult, htable, hlog⟩ := hending.outcome
  obtain ⟨hresult', htable', hlog'⟩ := huncached.outcome
  refine ⟨⟨hresult.trans hresult'.symm, htable.trans htable'.symm, hlog.trans hlog'.symm⟩,
    fun count hok => ?_, fun fault => ?_, fun fault hfault => ?_, hending.evictions_le.1,
    hending.evictions_le.2, fun count hok => hending.unseen nofun hok,
    fun other hother => ⟨hending.spares.entry other hother, hending.spares.trust other hother⟩⟩
  · obtain ⟨hcount, hkept, hrollback⟩ := deletionOutcome_ok (hresult.symm.trans hok)
    refine ⟨hcount, (htable.trans hkept).trans (ite_eq_right_iff.mpr fun hnone => ?_), ?_⟩
    · exact (erase_of_doomedIds_nil user image id hnone).symm
    · rwa [← hlog, mem_tableLog .rollback nofun] at hrollback
  · rw [hresult, deletionOutcome_error_iff, ← hlog]
    refine exists_congr fun cmd => and_congr_left fun ⟨hcmd, _⟩ => ?_
    have hkind : cmd.kind? ≠ some .delete := by
      rcases hcmd with hcmd | hcmd <;> rw [hcmd] <;> nofun
    exact mem_tableLog cmd hkind
  · obtain ⟨hkept, hcount⟩ := deletionOutcome_error (hresult.symm.trans hfault)
    obtain ⟨cmd, -, -, rfl⟩ := deletionOutcome_error_iff.mp (hresult.symm.trans hfault)
    refine ⟨⟨_, rfl, rfl⟩, htable.trans hkept, hending.pending, ?_⟩
    rwa [← hlog, Connection.tableLog, List.count_filter rfl] at hcount

end AliasGate.Storage
