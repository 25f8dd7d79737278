import AliasGate.Proofs.Storage.Execution

/-!
# Turns

Operations that come one after another, each in a session of its own on the same table and cache.

* `Task`: one operation, on any database (`Task.on`).
* `Turn`: a task with the plan of what fails during it. Before it, cache entries may run out.
* `Database.allocate_ends`: what the operations of a database maintain, allocation maintains.
-/

namespace AliasGate

/-! ## Tasks -/

/-- One operation on a database. -/
inductive Task where
  | lookup (id : Text)
  | find (s : ShortUrl)
  | insert (id : Text) (s : ShortUrl)
  | delete (user image : Text) (id : Option Text)
  /-- Allocates an id of a length, which is drawn from the source. -/
  | allocate (length : Int) (s : ShortUrl) (ids : IdSource)
  /-- Asks whether the database can be reached. -/
  | probe

namespace Task

/-- What a task gives if it does not fail. -/
abbrev Reply : Task → Type
  | lookup _ => Option ShortUrl
  | find _ => Option Text
  | insert _ _ => Unit
  | delete _ _ _ => Nat
  | allocate _ _ _ => Text
  | probe => Bool

/-- A task on a database. -/
def on {δ : Type} (db : Database δ) : (t : Task) → Action δ t.Reply
  | lookup id => db.lookup id
  | find s => db.find s
  | insert id s => db.insert id s
  | delete user image id => db.delete user image id
  | allocate length s ids => (db.allocate length s).onPart (fun d => (d, ids)) fun _ p => p.1
  | probe => db.isHealthy

end Task

/-! ## Allocation -/

namespace Database

open AliasGate.Action (Ends)

variable {δ : Type} {db : Database δ} {I : δ → Prop} {E : Fault → δ → Prop}

/-- Looking up, finding and inserting lead from states with `I` to states with `I`, or else to a
fault with `E`. -/
structure Maintains (db : Database δ) (I : δ → Prop) (E : Fault → δ → Prop) : Prop where
  lookup : ∀ id d, I d → Ends ((db.lookup id).perform d) (fun _ => I) E
  find : ∀ s d, I d → Ends ((db.find s).perform d) (fun _ => I) E
  insert : ∀ id s d, I d → Ends ((db.insert id s).perform d) (fun _ => I) E

theorem ends_onDatabase {α : Type} {a : Action δ α} {d : δ} {ids : IdSource} {Q : α → δ → Prop}
    (h : Ends (a.perform d) Q E) :
    Ends ((onDatabase a).perform (d, ids)) (fun x p => Q x p.1) fun fault p => E fault p.1 := by
  rw [onDatabase, Action.perform_onPart]
  rcases hx : a.perform d with ⟨_ | _, _⟩ <;> rw [hx] at h <;> exact h

/-- What drawing an id does is nothing to the database. -/
theorem ends_onIds {α : Type} {a : Action IdSource α} {p : δ × IdSource}
    (h : I p.1) (hE : ∀ fault, E fault p.1) :
    Ends ((onIds a).perform p) (fun _ p => I p.1) fun fault p => E fault p.1 := by
  rw [onIds, Action.perform_onPart]
  rcases a.perform p.2 with ⟨_ | _, _⟩
  · exact hE _
  · exact h

theorem allocateFresh_ends (h : db.Maintains I E) (hE : ∀ fault d, I d → E fault d) (length : Int)
    (s : ShortUrl) (draws : Nat) {p : δ × IdSource} (hp : I p.1) :
    Ends ((allocateFresh db length s draws).perform p) (fun _ p => I p.1)
      fun fault p => E fault p.1 := by
  induction draws generalizing p with
  | zero => exact hE _ _ hp
  | succ draws ih =>
    unfold allocateFresh
    rw [Action.perform_bind]
    refine (ends_onIds hp fun fault => hE fault _ hp).andThen fun id p hp => ?_
    rw [Action.perform_bind]
    refine (ends_onDatabase (h.lookup id p.1 hp)).andThen fun found p hp => ?_
    cases found with
    | some _ => exact ih hp
    | none =>
      show Ends ((onDatabase (db.insert id s) >>= fun _ => pure id).perform p) _ _
      rw [Action.perform_bind]
      exact (ends_onDatabase (h.insert id s p.1 hp)).andThen fun _ _ hp => hp

/-- What the operations of a database maintain, allocation maintains. -/
theorem allocate_ends (h : db.Maintains I E) (hE : ∀ fault d, I d → E fault d) (length : Int)
    (s : ShortUrl) {p : δ × IdSource} (hp : I p.1) :
    Ends ((db.allocate length s).perform p) (fun _ p => I p.1) fun fault p => E fault p.1 := by
  unfold allocate
  rw [Action.perform_bind]
  refine (ends_onDatabase (h.find s p.1 hp)).andThen fun found p hp => ?_
  cases found with
  | some id => exact hp
  | none => exact allocateFresh_ends h hE length s maxDraws hp

end Database

/-! ## Turns -/

namespace Storage

/-- A task on table and cache. -/
structure Turn where
  task : Task
  /-- The seconds that cache entries live, if the task is given a cache. -/
  cache : Option Int
  /-- Which commands of the task fail. -/
  plan : Plan
  /-- The keys of cache entries that ran out before the task. -/
  expired : List Text

namespace Turn

/-- The session of a turn. -/
def session (t : Turn) (b : Backend) : Connection :=
  .begin { b with cache := Keyed.without b.cache t.expired, plan := t.plan }

/-- The ending of a turn. -/
def play (t : Turn) (b : Backend) : Except Fault t.task.Reply × Connection :=
  (t.task.on (database t.cache)).perform (t.session b)

/-- Table and cache after a turn. -/
def leaves (t : Turn) (b : Backend) : Backend := (t.play b).2.backend

/-- A command of the turn failed by plan. -/
def isFaulty (t : Turn) (b : Backend) : Bool := (t.play b).2.log.any (·.2)

end Turn

/-- Table and cache after turns in a row. -/
def afterTurns (turns : List Turn) (b : Backend) : Backend := turns.foldl (fun b t => t.leaves b) b

/-- What holds at first and is kept by every turn holds after all of them. -/
theorem afterTurns_induction {P : Backend → Prop} {b : Backend} {turns : List Turn} (h : P b)
    (hstep : ∀ t ∈ turns, ∀ b, P b → P (t.leaves b)) : P (afterTurns turns b) := by
  induction turns generalizing b with
  | nil => exact h
  | cons t turns ih =>
    exact ih (hstep t List.mem_cons_self b h) fun u hu => hstep u (List.mem_cons_of_mem t hu)

end Storage

end AliasGate
