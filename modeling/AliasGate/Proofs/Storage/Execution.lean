import AliasGate.Proofs.Action
import AliasGate.Proofs.Keyed
import AliasGate.Storage.Backend

/-!
# Carrying out programs

What a program does to a connection, from what its commands do.

* `Connection.execute_bind`: a program is followed part by part, as an action is.
* `Connection.carryOut_select` and its like: one equation for each command, with the case that it
  fails by plan. Noting a command touches neither rows nor cache (`noted_table` and its like).
-/

namespace AliasGate.Storage.Connection

open AliasGate.Action (andThen)
open Program (give demand demandOrRollback)

variable {α β : Type} {c : Connection}

/-! ## Sequences -/

@[simp] theorem perform_run (p : Program α) (c : Connection) : (run p).perform c = execute p c := rfl

@[simp] theorem execute_pure (a : α) (c : Connection) :
    execute (pure a : Program α) c = (.ok a, c) := rfl

@[simp] theorem execute_raise (fault : Fault) (c : Connection) :
    execute (.raise fault : Program α) c = (.error fault, c) := rfl

/-- A sequence goes on from the ending of its first part. -/
theorem execute_bind (p : Program α) (f : α → Program β) (c : Connection) :
    execute (p >>= f) c = andThen (execute p c) fun a => run (f a) := by
  show execute (p.bind f) c = _
  induction p generalizing c with
  | done a => rfl
  | raise fault => rfl
  | command cmd next ih => exact ih _ _
  | stage id s next ih => exact ih _
  | distrusted next ih => exact ih _ _
  | distrust ids next ih => exact ih _
  | trust ids next ih => exact ih _

theorem execute_map (f : α → β) (p : Program α) (c : Connection) :
    execute (f <$> p) c = andThen (execute p c) fun a => pure (f a) :=
  execute_bind p (fun a => pure (f a)) c

/-! ## Single commands -/

/-- The connection after its changes have been taken back. -/
def rolledBack (c : Connection) : Connection := { c.noted .rollback with pending := [] }

theorem execute_give (cmd : Command) (c : Connection) :
    execute (give cmd) c = (.ok (c.carryOut cmd).1, (c.carryOut cmd).2) := rfl

theorem execute_command (cmd : Command) (next : Except Fault cmd.Reply → Program α)
    (c : Connection) :
    execute (.command cmd next) c = execute (next (c.carryOut cmd).1) (c.carryOut cmd).2 := rfl

theorem execute_demand (cmd : Command) (c : Connection) :
    execute (demand cmd) c = c.carryOut cmd := by
  unfold demand
  rw [execute_command]
  rcases c.carryOut cmd with ⟨_ | _, _⟩ <;> rfl

/-- A command that is answered passes its reply on. -/
theorem execute_demandOrRollback_ok {cmd : Command} {reply : cmd.Reply} {c' : Connection}
    (h : c.carryOut cmd = (.ok reply, c')) :
    execute (demandOrRollback cmd) c = (.ok reply, c') := by
  unfold demandOrRollback
  rw [execute_command, h]
  rfl

/-- A command that fails has the changes of the session taken back. -/
theorem execute_demandOrRollback_failure {cmd : Command} {f : Failure} {c' : Connection}
    (h : c.carryOut cmd = (.error (.failure f), c')) :
    execute (demandOrRollback cmd) c = (.error (.failure f), c'.rolledBack) := by
  unfold demandOrRollback
  rw [execute_command, h]
  rfl

/-- What is no failure passes at once. -/
theorem execute_demandOrRollback_defect {cmd : Command} {d : Defect} {c' : Connection}
    (h : c.carryOut cmd = (.error (.defect d), c')) :
    execute (demandOrRollback cmd) c = (.error (.defect d), c') := by
  unfold demandOrRollback
  rw [execute_command, h]
  rfl

/-! ## Noting -/

@[simp] theorem noted_table (c : Connection) (cmd : Command) :
    (c.noted cmd).backend.table = c.backend.table := rfl

@[simp] theorem noted_cache (c : Connection) (cmd : Command) :
    (c.noted cmd).backend.cache = c.backend.cache := rfl

@[simp] theorem noted_distrusted (c : Connection) (cmd : Command) :
    (c.noted cmd).backend.distrusted = c.backend.distrusted := rfl

@[simp] theorem noted_pending (c : Connection) (cmd : Command) :
    (c.noted cmd).pending = c.pending := rfl

@[simp] theorem noted_log (c : Connection) (cmd : Command) :
    (c.noted cmd).log = c.log ++ [(cmd, c.failsNext cmd)] := rfl

/-! ## Carrying out -/

/-- Taking changes back never fails. -/
@[simp] theorem failsNext_rollback (c : Connection) : c.failsNext .rollback = false := rfl

theorem carryOut_failed {cmd : Command} (h : c.failsNext cmd = true) :
    c.carryOut cmd = (.error (planned cmd), c.noted cmd) := if_pos h

theorem carryOut_effect {cmd : Command} (h : c.failsNext cmd = false) :
    c.carryOut cmd = (c.noted cmd).effect cmd := by
  unfold carryOut
  rw [h]
  rfl

theorem carryOut_select {s : Selection} (h : c.failsNext (.select s) = false) :
    c.carryOut (.select s) = (.ok (c.backend.table.filter s.holds), c.noted (.select s)) :=
  carryOut_effect h

theorem carryOut_erase {s : Selection} (h : c.failsNext (.erase s) = false) :
    c.carryOut (.erase s) =
      (.ok (), { c.noted (.erase s) with pending := c.pending ++ [.erase s] }) :=
  carryOut_effect h

theorem carryOut_commit (h : c.failsNext .commit = false) :
    c.carryOut .commit = (c.noted .commit).commit :=
  carryOut_effect h

theorem carryOut_cacheGet {key : Text} (h : c.failsNext (.cacheGet key) = false) :
    c.carryOut (.cacheGet key) =
      (.ok (Keyed.get? c.backend.cache key), c.noted (.cacheGet key)) :=
  carryOut_effect h

theorem carryOut_cacheSet {key value : Text} {seconds : Int}
    (h : c.failsNext (.cacheSet key value seconds) = false) :
    c.carryOut (.cacheSet key value seconds) =
      (.ok (), (c.noted (.cacheSet key value seconds)).withCache
        (Keyed.put c.backend.cache key value)) :=
  carryOut_effect h

theorem carryOut_cacheDelete {keys : List Text}
    (h : c.failsNext (.cacheDelete keys) = false) :
    c.carryOut (.cacheDelete keys) =
      (.ok (), (c.noted (.cacheDelete keys)).withCache (Keyed.without c.backend.cache keys)) :=
  carryOut_effect h

/-! ## Rows -/

/-- Committing the only change carries it out. -/
theorem commit_ok {change : Change} {table : Store} (h : c.pending = [change])
    (happly : applyChange c.backend.table change = .ok table) :
    c.commit =
      (.ok (), { c with backend := { c.backend with table := table }, pending := [] }) := by
  simp [commit, h, applyChanges, happly]

/-- The only change may be refused. -/
theorem commit_error {change : Change} {fault : Fault} (h : c.pending = [change])
    (happly : applyChange c.backend.table change = .error fault) : c.commit = (.error fault, c) := by
  simp [commit, h, applyChanges, happly]

/-- The connection with a row to be added. -/
def staged (c : Connection) (id : Text) (s : ShortUrl) : Connection :=
  { c with pending := c.pending ++ [.insert id s] }

/-- Inserting with no changes waiting: the commit may fail, the row may have no text, its id may be
in use, and otherwise the row is added at the end. -/
theorem execute_insert (h : c.pending = []) (id : Text) (s : ShortUrl) :
    execute (insert id s) c =
      if c.failsNext .commit then
        (.error (planned .commit), ((c.staged id s).noted .commit).rolledBack)
      else if !isEncodable s then
        (.error (.defect (.unencodable (s.extension.getD []))), (c.staged id s).noted .commit)
      else if id ∈ Keyed.keys c.backend.table then
        (.error (.failure (.backend "UNIQUE constraint failed".toList)),
          ((c.staged id s).noted .commit).rolledBack)
      else
        (.ok (),
          { c.noted .commit with
            backend :=
              { (c.noted .commit).backend with
                table := c.backend.table ++ [(id, s.joinPairs)] }
            pending := [] }) := by
  show execute (demandOrRollback .commit) (c.staged id s) = _
  have hpending : ((c.staged id s).noted .commit).pending = [.insert id s] :=
    congrArg (· ++ [Change.insert id s]) h
  cases hfails : c.failsNext .commit with
  | true => exact execute_demandOrRollback_failure (carryOut_failed hfails)
  | false =>
    have hcommit : (c.staged id s).carryOut .commit = ((c.staged id s).noted .commit).commit :=
      carryOut_commit hfails
    rw [if_neg Bool.false_ne_true]
    by_cases hencodable : (!isEncodable s) = true
    · rw [commit_error hpending (if_pos hencodable)] at hcommit
      rw [if_pos hencodable]
      exact execute_demandOrRollback_defect hcommit
    by_cases hused : id ∈ Keyed.keys c.backend.table
    · rw [commit_error hpending ((if_neg hencodable).trans (if_pos hused))] at hcommit
      rw [if_neg hencodable, if_pos hused]
      exact execute_demandOrRollback_failure hcommit
    · rw [commit_ok hpending ((if_neg hencodable).trans (if_neg hused))] at hcommit
      rw [if_neg hencodable, if_neg hused]
      exact execute_demandOrRollback_ok hcommit

/-- The row under an id, as it is selected. -/
theorem select_ofId (table : Store) (id : Text) :
    (table.filter (Selection.ofId id).holds).head?.map (·.2) = Keyed.get? table id := by
  rw [Keyed.get?_eq_head?]
  congr 2
  refine List.filter_congr fun row _ => ?_
  show (row.1 == id && true) = decide (row.1 = id)
  rw [Bool.and_true, Bool.eq_iff_iff, beq_iff_eq, decide_eq_true_iff]

/-- The rows of an image, or the one of them with the id, are what a store takes away. -/
theorem holds_ofImage (user image : Text) (id : Option Text) (row : Text × ShortUrl) :
    (Selection.ofImage user image id).holds row = Store.isDoomed user image id row := by
  simp [Selection.holds, Selection.ofImage, Store.isDoomed, Bool.and_comm]

end AliasGate.Storage.Connection
