import AliasGate.Proofs.ShortUrl.Allocation
import AliasGate.Proofs.Storage.Deletion
import AliasGate.Proofs.Storage.Turns

/-!
# Rows refine a store in memory

A database of rows without a cache does what a store in memory does, and a command that fails
leaves no trace.

* `Action.Tells S F x y`: two endings tell the same and leave states related by `S`, or the first
  is a fault that `F` excuses.
* `ShortUrl.IsStorable`: what a row gives back as it was.
* `task_tells`: the simulation of one task.
* `turns_refine_memory`: the two databases side by side, over any run.
-/

namespace AliasGate

/-! ## Endings that tell the same -/

/-- Faults that clients cannot tell apart but by their messages. -/
def Fault.Alike (e e' : Fault) : Prop :=
  e = e' ∨ ∃ f f', e = .failure f ∧ e' = .failure f' ∧ f.kind = .database ∧ f'.kind = .database

/-- Endings with one result, or with faults that are alike. -/
def SameEnding {α : Type} : Except Fault α → Except Fault α → Prop
  | .ok a, .ok b => a = b
  | .error e, .error e' => e.Alike e'
  | _, _ => False

namespace Action

variable {σ τ α β : Type} {S S' : σ → τ → Prop} {F : Fault → σ → Prop}

/-- The endings have the same result, or faults that are alike, and leave states related by `S`;
or else the first is a fault that `F` excuses. -/
def Tells (S : σ → τ → Prop) (F : Fault → σ → Prop) :
    Except Fault α × σ → Except Fault α × τ → Prop
  | (.ok a, s), (.ok b, t) => a = b ∧ S s t
  | (.error e, s), (.error e', t) => (e.Alike e' ∧ S s t) ∨ F e s
  | (.error e, s), (.ok _, _) => F e s
  | (.ok _, _), (.error _, _) => False

theorem Tells.excused {e : Fault} {s : σ} (h : F e s) (y : Except Fault α × τ) :
    Tells S F (.error e, s) y := by
  rcases y with ⟨_ | _, _⟩
  · exact .inr h
  · exact h

theorem Tells.andThen {x : Except Fault α × σ} {y : Except Fault α × τ} {f : α → Action σ β}
    {g : α → Action τ β} (h : Tells S F x y) (hS : ∀ s t, S s t → S' s t)
    (hf : ∀ a s t, S s t → Tells S' F ((f a).perform s) ((g a).perform t)) :
    Tells S' F (andThen x f) (andThen y g) := by
  rcases x with ⟨e | a, s⟩ <;> rcases y with ⟨e' | b, t⟩
  · exact h.imp_left fun h => ⟨h.1, hS s t h.2⟩
  · exact .excused h _
  · exact h.elim
  · obtain ⟨rfl, hst⟩ := h
    exact hf a s t hst

end Action

/-! ## Allocation -/

namespace Database

open AliasGate.Action (Tells)

variable {δ δ' : Type} {db : Database δ} {db' : Database δ'} {R S : δ → δ' → Prop}
  {F : Fault → δ → Prop}

/-- States of two databases beside the same source of ids. -/
def Beside (R : δ → δ' → Prop) (p : δ × IdSource) (q : δ' × IdSource) : Prop :=
  R p.1 q.1 ∧ p.2 = q.2

theorem tells_onDatabase {α : Type} {a : Action δ α} {a' : Action δ' α} {d : δ} {d' : δ'}
    (ids : IdSource) (h : Tells S F (a.perform d) (a'.perform d')) :
    Tells (Beside S) (fun e p => F e p.1) ((onDatabase a).perform (d, ids))
      ((onDatabase a').perform (d', ids)) := by
  rw [onDatabase, onDatabase, Action.perform_onPart, Action.perform_onPart]
  rcases hx : a.perform d with ⟨e | x, s⟩ <;> rcases hy : a'.perform d' with ⟨e' | y, t⟩ <;>
    rw [hx, hy] at h
  · exact h.imp_left fun h => ⟨h.1, h.2, rfl⟩
  · exact h
  · exact h.elim
  · exact ⟨h.1, h.2, rfl⟩

theorem tells_onIds {α : Type} (a : Action IdSource α) {p : δ × IdSource} {q : δ' × IdSource}
    (h : Beside R p q) :
    Tells (Beside R) (fun e p => F e p.1) ((onIds a).perform p) ((onIds a).perform q) := by
  obtain ⟨hd, hids⟩ := h
  rw [onIds, onIds, Action.perform_onPart, Action.perform_onPart, hids]
  rcases a.perform q.2 with ⟨e | x, ids⟩
  · exact .inl ⟨.inl rfl, hd, rfl⟩
  · exact ⟨rfl, hd, rfl⟩

/-- On states related by `R`, looking up and finding tell the same and leave such states; inserting
leads to states related by `S`. -/
structure Mirrors (db : Database δ) (db' : Database δ') (R S : δ → δ' → Prop)
    (F : Fault → δ → Prop) (s : ShortUrl) : Prop where
  weaken : ∀ d d', R d d' → S d d'
  lookup : ∀ id d d', R d d' → Tells R F ((db.lookup id).perform d) ((db'.lookup id).perform d')
  find : ∀ d d', R d d' → Tells R F ((db.find s).perform d) ((db'.find s).perform d')
  insert : ∀ id d d', R d d' →
    Tells S F ((db.insert id s).perform d) ((db'.insert id s).perform d')

theorem Mirrors.beside {s : ShortUrl} (h : Mirrors db db' R S F s) {p : δ × IdSource}
    {q : δ' × IdSource} (hpq : Beside R p q) : Beside S p q :=
  ⟨h.weaken _ _ hpq.1, hpq.2⟩

theorem allocateFresh_tells {s : ShortUrl} (h : Mirrors db db' R S F s) (length : Int)
    (draws : Nat) {p : δ × IdSource} {q : δ' × IdSource} (hpq : Beside R p q) :
    Tells (Beside S) (fun e p => F e p.1) ((allocateFresh db length s draws).perform p)
      ((allocateFresh db' length s draws).perform q) := by
  induction draws generalizing p q with
  | zero => exact .inl ⟨.inl rfl, h.beside hpq⟩
  | succ draws ih =>
    unfold allocateFresh
    rw [Action.perform_bind, Action.perform_bind]
    refine (tells_onIds _ hpq).andThen (fun _ _ => h.beside) ?_
    rintro id ⟨d, ids⟩ ⟨d', _⟩ ⟨hd, rfl⟩
    rw [Action.perform_bind, Action.perform_bind]
    refine (tells_onDatabase ids (h.lookup id d d' hd)).andThen (fun _ _ => h.beside) ?_
    rintro (_ | _) ⟨d, ids⟩ ⟨d', _⟩ ⟨hd, rfl⟩
    · show Tells _ _ ((onDatabase (db.insert id s) >>= fun _ => pure id).perform (d, ids))
        ((onDatabase (db'.insert id s) >>= fun _ => pure id).perform (d', ids))
      rw [Action.perform_bind, Action.perform_bind]
      exact (tells_onDatabase ids (h.insert id d d' hd)).andThen (fun _ _ h => h)
        fun _ _ _ hst => ⟨rfl, hst⟩
    · exact ih ⟨hd, rfl⟩

/-- Allocation tells the same on databases whose operations do. -/
theorem allocate_tells {s : ShortUrl} (h : Mirrors db db' R S F s) (length : Int)
    {p : δ × IdSource} {q : δ' × IdSource} (hpq : Beside R p q) :
    Tells (Beside S) (fun e p => F e p.1) ((db.allocate length s).perform p)
      ((db'.allocate length s).perform q) := by
  obtain ⟨d, ids⟩ := p
  obtain ⟨d', _⟩ := q
  obtain ⟨hd, rfl⟩ := hpq
  unfold allocate
  rw [Action.perform_bind, Action.perform_bind]
  refine (tells_onDatabase _ (h.find d d' hd)).andThen (fun _ _ => h.beside) ?_
  rintro (_ | id) p q hpq
  · exact allocateFresh_tells h length maxDraws hpq
  · exact ⟨rfl, h.beside hpq⟩

end Database

/-! ## Rows beside a store -/

/-- A row gives it back as it was: its extension is a text, and in its query no high surrogate
stands right before a low one and no name stands twice. -/
def ShortUrl.IsStorable (s : ShortUrl) : Prop :=
  Storage.Connection.isEncodable s = true ∧ s.joinPairs = s

/-- The task is about short URLs, and those that it stores can be stored as they are. -/
def Task.IsStorable : Task → Prop
  | .lookup _ | .find _ | .delete _ _ _ => True
  | .insert _ s | .allocate _ s _ => s.IsStorable
  | .probe => False

namespace Storage

open AliasGate.Action (Tells)
open Connection

/-- No command failed by plan. -/
def Connection.IsFaultless (c : Connection) : Prop := c.log.any (·.2) = false

/-- The rows of a connection, none of whose commands failed, are a store. -/
def IsStore (c : Connection) (store : Store) : Prop := c.IsFaultless ∧ c.backend.table = store

/-- Moreover no changes wait, and the rows are still those given. -/
def IsStoreStill (rows : Store) (c : Connection) (store : Store) : Prop :=
  c.pending = [] ∧ IsStore c store ∧ store = rows

/-- A command failed by plan, which is told as a failure of the database, and the rows are those
given. -/
def Failed (rows : Store) (e : Fault) (c : Connection) : Prop :=
  (∃ f, e = .failure f ∧ f.kind = .database) ∧ c.log.any (·.2) = true ∧ c.backend.table = rows

variable {rows store : Store} {c : Connection}

theorem isStoreStill_noted (h : IsStoreStill rows c store) {cmd : Command}
    (hcmd : c.failsNext cmd = false) : IsStoreStill rows (c.noted cmd) store := by
  refine ⟨h.1, ⟨?_, h.2.1.2⟩, h.2.2⟩
  have hlog : c.log.any (·.2) = false := h.2.1.1
  simp [IsFaultless, hlog, hcmd]

theorem failed_noted (h : IsStoreStill rows c store) {cmd : Command}
    (hcmd : c.failsNext cmd = true) : Failed rows (planned cmd) (c.noted cmd) := by
  refine ⟨⟨_, rfl, rfl⟩, ?_, h.2.1.2.trans h.2.2⟩
  simp [hcmd]

theorem Failed.rolledBack {e : Fault} (h : Failed rows e c) : Failed rows e c.rolledBack := by
  refine ⟨h.1, ?_, h.2.2⟩
  have hlog : c.log.any (·.2) = true := h.2.1
  simp [Connection.rolledBack, hlog]

/-! ## Operations -/

theorem lookup_tells (id : Text) (h : IsStoreStill rows c store) :
    Tells (IsStoreStill rows) (Failed rows) (((database none).lookup id).perform c)
      (((Database.inMemory true).lookup id).perform store) := by
  show Tells _ _ (execute (lookupRow none id) c) (.ok (Keyed.get? store id), store)
  unfold lookupRow
  rw [execute_bind, execute_demand]
  cases hfails : c.failsNext (.select (.ofId id)) with
  | true =>
    rw [carryOut_failed hfails]
    exact .excused (failed_noted h hfails) _
  | false =>
    have hrow := select_ofId c.backend.table id
    rw [carryOut_select hfails, Action.andThen_ok, ← h.2.1.2]
    generalize c.backend.table.filter (Selection.ofId id).holds = found at hrow
    match found, hrow with
    | [], hrow => exact ⟨hrow, h.2.1.2 ▸ isStoreStill_noted h hfails⟩
    | _ :: _, hrow => exact ⟨hrow, h.2.1.2 ▸ isStoreStill_noted h hfails⟩

/-- Looking only among the rows of its image loses no agreeing row. -/
theorem idOf?_filter (store : Store) (s : ShortUrl) :
    ((store.filter (Selection.ofImage s.user s.image none).holds).find? fun row =>
      row.2.agrees s).map (·.1) = store.idOf? s := by
  have himage : ∀ row : Text × ShortUrl,
      ((Selection.ofImage s.user s.image none).holds row && row.2.agrees s) = row.2.agrees s := by
    intro row
    cases hagrees : row.2.agrees s with
    | false => exact Bool.and_false _
    | true =>
      simp only [ShortUrl.agrees, Bool.and_eq_true] at hagrees
      obtain ⟨⟨⟨huser, himage⟩, -⟩, -⟩ := hagrees
      simp [Selection.holds, Selection.ofImage, ShortUrl.isOf, huser, himage]
  rw [Store.idOf?, List.find?_filter]
  congr 2
  funext row
  simpa using himage row

theorem find_tells (s : ShortUrl) (h : IsStoreStill rows c store) :
    Tells (IsStoreStill rows) (Failed rows) (((database none).find s).perform c)
      (((Database.inMemory true).find s).perform store) := by
  show Tells _ _ (execute (find s) c) (.ok (store.idOf? s), store)
  unfold find
  rw [execute_bind, execute_demand]
  cases hfails : c.failsNext (.select (.ofImage s.user s.image none)) with
  | true =>
    rw [carryOut_failed hfails]
    exact .excused (failed_noted h hfails) _
  | false =>
    rw [carryOut_select hfails, Action.andThen_ok, h.2.1.2, ← idOf?_filter]
    exact ⟨rfl, isStoreStill_noted h hfails⟩

theorem insert_tells (id : Text) {s : ShortUrl} (hs : s.IsStorable)
    (h : IsStoreStill rows c store) :
    Tells IsStore (Failed rows) (((database none).insert id s).perform c)
      (((Database.inMemory true).insert id s).perform store) := by
  have hstaged : ∀ {cmd}, c.failsNext cmd = true → Failed rows (planned cmd)
      ((c.staged id s).noted cmd) := fun hcmd => failed_noted h hcmd
  have hfaultless : c.failsNext .commit ≠ true → ((c.staged id s).noted .commit).IsFaultless :=
    fun hcmd => (isStoreStill_noted h (Bool.of_not_eq_true hcmd)).2.1.1
  show Tells _ _ (execute (insert id s) c) _
  rw [execute_insert h.1, Database.perform_inMemory_insert]
  by_cases hfails : c.failsNext .commit = true
  · rw [if_pos hfails]
    exact .excused (hstaged hfails).rolledBack _
  rw [if_neg hfails, if_neg (by simp [hs.1]), h.2.1.2]
  by_cases hused : id ∈ Keyed.keys store
  · rw [if_pos hused, if_pos hused]
    refine .inl ⟨.inr ⟨_, _, rfl, rfl, rfl, rfl⟩, ?_, h.2.1.2⟩
    simpa [IsFaultless, Connection.rolledBack] using hfaultless hfails
  · rw [if_neg hused, if_neg hused, hs.2]
    exact ⟨rfl, hfaultless hfails, rfl⟩

theorem delete_tells (user image : Text) (id : Option Text) (h : IsStoreStill rows c store) :
    Tells IsStore (Failed rows) (((database none).delete user image id).perform c)
      (((Database.inMemory true).delete user image id).perform store) := by
  show Tells _ _ (execute (delete none user image id) c)
    (.ok (store.eraseCount user image id), store.erase user image id)
  have hdeletion := delete_deletion user image id none c h.1
  generalize execute (delete none user image id) c = x at hdeletion ⊢
  rw [h.2.1.2] at hdeletion
  have hcount := length_doomedIds user image id store
  -- without a cache both evictions are nothing, and what waits to be committed is no row yet
  have herased : ∀ {s : Selection}, c.failsNext (.select s) = false →
      (c.noted (.select s)).failsNext (.erase s) = false →
      IsStoreStill rows { (c.noted (.select s)).erased s with pending := [] } store :=
    fun hselect herase => ⟨rfl, (isStoreStill_noted (isStoreStill_noted h hselect) herase).2⟩
  cases hdeletion with
  | unselected hselect => exact .excused (failed_noted h hselect).rolledBack _
  | nothing hselect hnone =>
    have hselected := isStoreStill_noted h hselect
    rw [hnone] at hcount
    refine ⟨hcount, hselected.2.1.1, hselected.2.1.2.trans ?_⟩
    exact (erase_of_doomedIds_nil user image id hnone).symm
  | unerased hselect _ hevicted herase =>
    obtain rfl := hevicted.still rfl
    exact .excused (failed_noted (isStoreStill_noted h hselect) herase).rolledBack _
  | uncommitted hselect _ hevicted herase hcommit =>
    obtain rfl := hevicted.still rfl
    have hfailed : Failed rows (planned .commit)
        (((c.noted (.select (.ofImage user image id))).erased (.ofImage user image id)).noted
          .commit) := failed_noted (herased hselect herase) hcommit
    exact .excused hfailed.rolledBack _
  | done hselect _ hevicted herase hcommit hagain =>
    obtain rfl := hevicted.still rfl
    obtain rfl := hagain.still rfl
    exact ⟨hcount, (isStoreStill_noted (herased hselect herase) hcommit).2.1.1, rfl⟩

/-! ## Runs -/

theorem database_mirrors (rows : Store) {s : ShortUrl} (hs : s.IsStorable) :
    (database none).Mirrors (.inMemory true) (IsStoreStill rows) IsStore (Failed rows) s where
  weaken _ _ h := h.2.1
  lookup id _ _ h := lookup_tells id h
  find _ _ h := find_tells s h
  insert id _ _ h := insert_tells id hs h

/-- A task on rows tells what it tells on a store in memory, or a command failed. -/
theorem task_tells {t : Task} (ht : t.IsStorable) (h : IsStoreStill rows c store) :
    Tells IsStore (Failed rows) ((t.on (database none)).perform c)
      ((t.on (.inMemory true)).perform store) := by
  have hkeep : ∀ {α : Type} {x : Except Fault α × Connection} {y : Except Fault α × Store},
      Tells (IsStoreStill rows) (Failed rows) x y → Tells IsStore (Failed rows) x y := by
    rintro α ⟨_ | _, _⟩ ⟨_ | _, _⟩ h
    · exact h.imp_left fun h => ⟨h.1, h.2.2.1⟩
    · exact h
    · exact h
    · exact ⟨h.1, h.2.2.1⟩
  cases t with
  | lookup id => exact hkeep (lookup_tells id h)
  | find s => exact hkeep (find_tells s h)
  | insert id s => exact insert_tells id ht h
  | delete user image id => exact delete_tells user image id h
  | allocate length s ids =>
    have htells := Database.allocate_tells (database_mirrors rows ht) length
      (p := (c, ids)) (q := (store, ids)) ⟨h, rfl⟩
    unfold Task.on
    rw [Action.perform_onPart, Action.perform_onPart]
    rcases hx : ((database none).allocate length s).perform (c, ids) with ⟨_ | _, _⟩ <;>
      rcases hy : ((Database.inMemory true).allocate length s).perform (store, ids) with ⟨_ | _, _⟩ <;>
      rw [hx, hy] at htells
    · exact htells.imp_left fun h => ⟨h.1, h.2.1⟩
    · exact htells
    · exact htells
    · exact ⟨htells.1, htells.2.1⟩
  | probe => exact ht.elim

/-- **One turn.** If no command fails, the turn on rows tells what it tells on the store of these
rows, and leaves the rows that it leaves there. If one fails, it tells a failure of the database and
leaves the rows as they were. -/
theorem turn_refines {t : Turn} (hcache : t.cache = none) (ht : t.task.IsStorable) (b : Backend) :
    (t.isFaulty b = false →
      SameEnding (t.play b).1 ((t.task.on (.inMemory true)).perform b.table).1 ∧
        (t.leaves b).table = ((t.task.on (.inMemory true)).perform b.table).2) ∧
    (t.isFaulty b = true →
      (∃ f, (t.play b).1 = .error (.failure f) ∧ f.kind = .database) ∧
        (t.leaves b).table = b.table) := by
  have hstart : IsStoreStill b.table (t.session b) b.table := ⟨rfl, ⟨rfl, rfl⟩, rfl⟩
  have htells := task_tells ht hstart
  unfold Turn.isFaulty Turn.leaves Turn.play
  rw [hcache]
  rcases hx : (t.task.on (database none)).perform (t.session b) with ⟨e | a, c'⟩ <;>
    rcases hy : (t.task.on (.inMemory true)).perform b.table with ⟨e' | a', store⟩ <;>
    rw [hx, hy] at htells
  · rcases htells with ⟨halike, hstore⟩ | ⟨⟨f, rfl, hkind⟩, hfaulty, hrows⟩
    · exact ⟨fun _ => ⟨halike, hstore.2⟩, fun h => absurd hstore.1 (by simp [h, IsFaultless])⟩
    · exact ⟨fun h => absurd hfaulty (by simp [h]), fun _ => ⟨⟨f, rfl, hkind⟩, hrows⟩⟩
  · obtain ⟨⟨f, rfl, hkind⟩, hfaulty, hrows⟩ := htells
    exact ⟨fun h => absurd hfaulty (by simp [h]), fun _ => ⟨⟨f, rfl, hkind⟩, hrows⟩⟩
  · exact htells.elim
  · obtain ⟨rfl, hstore⟩ := htells
    exact ⟨fun _ => ⟨rfl, hstore.2⟩, fun h => absurd hstore.1 (by simp [h, IsFaultless])⟩

/-- The store in memory beside rows: it takes the turns in which no command fails. -/
def storeBeside : List Turn → Backend → Store → Store
  | [], _, store => store
  | t :: turns, b, store =>
    storeBeside turns (t.leaves b)
      (if t.isFaulty b then store else ((t.task.on (.inMemory true)).perform store).2)

theorem afterTurns_table {turns : List Turn}
    (h : ∀ t ∈ turns, t.cache = none ∧ t.task.IsStorable) (b : Backend) :
    (afterTurns turns b).table = storeBeside turns b b.table := by
  induction turns generalizing b with
  | nil => rfl
  | cons t turns ih =>
    obtain ⟨hcache, ht⟩ := h t List.mem_cons_self
    obtain ⟨hfaultless, hfaulty⟩ := turn_refines hcache ht b
    refine (ih (fun u hu => h u (List.mem_cons_of_mem t hu)) (t.leaves b)).trans ?_
    show storeBeside turns (t.leaves b) _ = storeBeside turns (t.leaves b) _
    cases hcase : t.isFaulty b with
    | true => rw [(hfaulty hcase).2, if_pos rfl]
    | false => rw [(hfaultless hcase).2, if_neg Bool.false_ne_true]

/-- **Rows refine a store in memory.** After a run without a cache, the table is the store of the
run in memory (`storeBeside`). A turn without a fault ends the same on both (`SameEnding`); one with
a fault fails as the database does and leaves the table as it was. -/
theorem turns_refine_memory {turns : List Turn} {t : Turn}
    (h : ∀ u ∈ turns ++ [t], u.cache = none ∧ u.task.IsStorable) :
    let b := afterTurns turns .empty
    let store := storeBeside turns .empty []
    b.table = store ∧
    (t.isFaulty b = false →
      SameEnding (t.play b).1 ((t.task.on (.inMemory true)).perform store).1 ∧
        (t.leaves b).table = ((t.task.on (.inMemory true)).perform store).2) ∧
    (t.isFaulty b = true →
      (∃ f, (t.play b).1 = .error (.failure f) ∧ f.kind = .database) ∧
        (t.leaves b).table = b.table) := by
  intro b store
  have htable : b.table = store :=
    afterTurns_table (fun u hu => h u (List.mem_append_left [t] hu)) .empty
  obtain ⟨hcache, ht⟩ := h t (List.mem_append_right turns List.mem_cons_self)
  exact ⟨htable, htable ▸ turn_refines hcache ht b⟩

/-- A short URL is inserted, which fails at the commit, and is inserted again. -/
def insertedTwice : List Turn :=
  [⟨.insert "a".toList ⟨"u".toList, "i".toList, none, []⟩, none,
      .first fun k => if k = .commit then 1 else 0, []⟩,
    ⟨.insert "a".toList ⟨"u".toList, "i".toList, none, []⟩, none, .never, []⟩]

/-- Allocating an id for a short URL that is stored. -/
def allocatedAgain : Turn :=
  ⟨.allocate 7 ⟨"u".toList, "i".toList, none, []⟩ (.ofScript []), none, .never, []⟩

/-- The first of two insertions leaves nothing, and the id of the second is used again. -/
theorem turns_refine_memory_retried :
    (∀ u ∈ insertedTwice ++ [allocatedAgain], u.cache = none ∧ u.task.IsStorable) ∧
      (afterTurns insertedTwice .empty).table.length = 1 ∧
      allocatedAgain.isFaulty (afterTurns insertedTwice .empty) = false ∧
      SameEnding (allocatedAgain.play (afterTurns insertedTwice .empty)).1
        ((allocatedAgain.task.on (.inMemory true)).perform
          (storeBeside insertedTwice .empty [])).1 := by
  have h : ∀ u ∈ insertedTwice ++ [allocatedAgain], u.cache = none ∧ u.task.IsStorable := by
    simp only [insertedTwice, allocatedAgain, List.cons_append, List.nil_append, List.mem_cons,
      List.not_mem_nil, or_false]
    rintro u (rfl | rfl | rfl) <;> exact ⟨rfl, rfl, rfl⟩
  have hfaultless : allocatedAgain.isFaulty (afterTurns insertedTwice .empty) = false := by
    decide +kernel
  exact ⟨h, by decide +kernel, hfaultless, ((turns_refine_memory h).2.1 hfaultless).1⟩

/-- Inserting a short URL whose extension is no text. -/
def insertedUnencodable : Turn :=
  ⟨.insert "a".toList ⟨"u".toList, "i".toList, some [.surrogate 0], []⟩, none, .never, []⟩

/-- A short URL with the two halves of a character side by side. -/
def halved : ShortUrl :=
  ⟨"u".toList, "i".toList, none, [([.char 'a'], .str [.surrogate 0x3D, .surrogate 0x600])]⟩

/-- Inserting it. -/
def insertedHalved : List Turn := [⟨.insert "a".toList halved, none, .never, []⟩]

/-- Finding it. -/
def foundHalved : Turn := ⟨.find halved, none, .never, []⟩

/-- An extension that is no text is refused in words of its own, and two halves of a character that
are stored side by side become that character, by which the short URL is not found again. A store in
memory takes both. -/
theorem surrogates_not_kept :
    (insertedUnencodable.isFaulty .empty = false ∧
      (insertedUnencodable.play .empty).1 = .error (.defect (.unencodable [.surrogate 0])) ∧
      (Defect.unencodable [.surrogate 0]).message =
        "'utf-8' codec can't encode character '\\ud800' in position 0: surrogates not allowed".toList ∧
      ((insertedUnencodable.task.on (.inMemory true)).perform []).1 = .ok ()) ∧
    foundHalved.isFaulty (afterTurns insertedHalved .empty) = false ∧
    (foundHalved.play (afterTurns insertedHalved .empty)).1 = .ok none ∧
    ((foundHalved.task.on (.inMemory true)).perform (storeBeside insertedHalved .empty [])).1 =
      .ok (some "a".toList) := by
  refine ⟨⟨?_, ?_, ?_, ?_⟩, ?_, ?_, ?_⟩ <;> rfl

end Storage

end AliasGate
