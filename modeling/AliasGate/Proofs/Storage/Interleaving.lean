import AliasGate.Proofs.Storage.Execution

/-!
# Interleaved sessions

A deletion and look-ups on the same table and cache, each in a session of its own, that go on in any
order, step by step. A step carries out one command, or it is what a program does between two.

* `Connection.step`: one step. A program that is carried out without others takes the same steps
  (`Connection.execute_step`).
* `Scene`: the deletion and the look-ups on their way; `Scene.after` and `Scene.play` follow moves.
* `Scene.play_keeps`: what every step keeps holds after all moves.
-/

namespace AliasGate.Storage

/-! ## Steps -/

namespace Connection

variable {α : Type}

/-- The next step of a program: what is left of it, and the connection after it. -/
def step : Program α → Connection → Program α × Connection
  | .done a, c => (.done a, c)
  | .raise fault, c => (.raise fault, c)
  | .command cmd next, c => (next (c.carryOut cmd).1, (c.carryOut cmd).2)
  | .stage id s next, c => (next, { c with pending := c.pending ++ [.insert id s] })
  | .distrusted next, c => (next c.backend.distrusted, c)
  | .distrust ids next, c =>
    (next, c.mapDistrusted fun old => old ++ (ids.filter (· ∉ old)).eraseDups)
  | .trust ids next, c => (next, c.mapDistrusted fun old => old.filter (· ∉ ids))

/-- A program that is carried out alone takes its steps one after another. -/
theorem execute_step (p : Program α) (c : Connection) :
    execute (step p c).1 (step p c).2 = execute p c := by
  cases p <;> rfl

end Connection

/-- A program on its way, and the changes that wait in its session. -/
structure Session (α : Type) where
  rest : Program α
  pending : List Change

namespace Session

variable {α : Type}

/-- The session after its next step, and table and cache after it. -/
def step (s : Session α) (b : Backend) : Session α × Backend :=
  let (rest, c) := Connection.step s.rest ⟨b, s.pending, []⟩
  (⟨rest, c.pending⟩, c.backend)

/-- What the session ends with if from now on it is alone with table and cache. -/
def ending (s : Session α) (b : Backend) : Except Fault α :=
  (Connection.execute s.rest ⟨b, s.pending, []⟩).1

end Session

/-! ## Scenes -/

/-- A look-up on its way. -/
structure Seeker where
  id : Text
  session : Session (Option ShortUrl)

/-- A deletion and look-ups on the same table and cache, in the order in which they were started. -/
structure Scene where
  backend : Backend
  deletion : Session Nat
  seekers : List Seeker

/-- What happens next. -/
inductive Move where
  /-- A look-up is started, with the seconds that cache entries live. -/
  | start (id : Text) (seconds : Int)
  /-- The look-up at a place takes a step. -/
  | seek (place : Nat)
  /-- The deletion takes a step. -/
  | erase
  deriving DecidableEq, Repr

namespace Scene

/-- Nothing has happened, and rows are to be deleted. -/
def beforeDeletion (b : Backend) (seconds : Int) (user image : Text) (id : Option Text) : Scene :=
  ⟨b, ⟨Storage.delete (some seconds) user image id, []⟩, []⟩

/-- The scene after a move. -/
def after (scene : Scene) : Move → Scene
  | .start id seconds =>
    { scene with seekers := scene.seekers ++ [⟨id, ⟨Storage.lookup (some seconds) id, []⟩⟩] }
  | .seek place =>
    match scene.seekers[place]? with
    | none => scene
    | some s =>
      let (session, b) := s.session.step scene.backend
      { scene with backend := b, seekers := scene.seekers.set place { s with session := session } }
  | .erase =>
    let (session, b) := scene.deletion.step scene.backend
    { scene with backend := b, deletion := session }

/-- The scene after moves in a row. -/
def play (moves : List Move) (scene : Scene) : Scene := moves.foldl after scene

theorem after_seek_none {scene : Scene} {place : Nat} (h : scene.seekers[place]? = none) :
    scene.after (.seek place) = scene := by
  simp only [after, h]

theorem after_seek {scene : Scene} {place : Nat} {s : Seeker}
    (h : scene.seekers[place]? = some s) :
    scene.after (.seek place) =
      { scene with
        backend := (s.session.step scene.backend).2
        seekers :=
          scene.seekers.set place { s with session := (s.session.step scene.backend).1 } } := by
  simp only [after, h]

/-- No look-up is lost. -/
theorem length_after (scene : Scene) (move : Move) :
    scene.seekers.length ≤ (scene.after move).seekers.length := by
  cases move with
  | start id seconds => simp [after]
  | seek place =>
    cases hplace : scene.seekers[place]? with
    | none => exact Nat.le_of_eq (by rw [after_seek_none hplace])
    | some s => exact Nat.le_of_eq (by rw [after_seek hplace, List.length_set])
  | erase => exact Nat.le_refl _

variable {I : Backend → Session Nat → Prop} {Q : Nat → Seeker → Prop} (scene : Scene)

/-- What table, cache and deletion have in common, and what each look-up has at its place, is there
after a move if each step of a look-up and of the deletion keeps it, and if a look-up that is
started has it. -/
theorem after_keeps
    (h : I scene.backend scene.deletion ∧ ∀ i s, scene.seekers[i]? = some s → Q i s)
    (hstart : ∀ i id seconds, scene.seekers.length ≤ i →
      Q i ⟨id, ⟨Storage.lookup (some seconds) id, []⟩⟩)
    (hseek : ∀ i s b d, I b d → Q i s →
      I (s.session.step b).2 d ∧ Q i { s with session := (s.session.step b).1 })
    (herase : ∀ b d, I b d → I (d.step b).2 (d.step b).1) (move : Move) :
    I (scene.after move).backend (scene.after move).deletion ∧
      ∀ i s, (scene.after move).seekers[i]? = some s → Q i s := by
  obtain ⟨hI, hQ⟩ := h
  cases move with
  | start id seconds =>
    refine ⟨hI, fun i s hs => ?_⟩
    rw [after, List.getElem?_append] at hs
    by_cases hi : i < scene.seekers.length
    · rw [if_pos hi] at hs
      exact hQ i s hs
    · rw [if_neg hi] at hs
      obtain rfl := List.mem_singleton.mp (List.mem_of_getElem? hs)
      exact hstart i id seconds (Nat.le_of_not_lt hi)
  | seek place =>
    cases hplace : scene.seekers[place]? with
    | none =>
      rw [after_seek_none hplace]
      exact ⟨hI, hQ⟩
    | some s =>
      obtain ⟨hI', hQ'⟩ := hseek place s scene.backend scene.deletion hI (hQ place s hplace)
      rw [after_seek hplace]
      refine ⟨hI', fun i s' hs' => ?_⟩
      rw [List.getElem?_set] at hs'
      by_cases hi : place = i
      · subst hi
        obtain ⟨hlt, -⟩ := List.getElem?_eq_some_iff.mp hplace
        rw [if_pos rfl, if_pos hlt] at hs'
        exact Option.some.inj hs' ▸ hQ'
      · rw [if_neg hi] at hs'
        exact hQ i s' hs'
  | erase => exact ⟨herase _ _ hI, hQ⟩

/-- **Invariants.** What holds at first and is kept by every step holds after all moves. -/
theorem play_keeps
    (h : I scene.backend scene.deletion ∧ ∀ i s, scene.seekers[i]? = some s → Q i s)
    (hstart : ∀ i id seconds, scene.seekers.length ≤ i →
      Q i ⟨id, ⟨Storage.lookup (some seconds) id, []⟩⟩)
    (hseek : ∀ i s b d, I b d → Q i s →
      I (s.session.step b).2 d ∧ Q i { s with session := (s.session.step b).1 })
    (herase : ∀ b d, I b d → I (d.step b).2 (d.step b).1) (moves : List Move) :
    I (scene.play moves).backend (scene.play moves).deletion ∧
      ∀ i s, (scene.play moves).seekers[i]? = some s → Q i s := by
  induction moves generalizing scene with
  | nil => exact h
  | cons move moves ih =>
    refine ih (scene.after move) (after_keeps scene h hstart hseek herase move)
      fun i id seconds hi => ?_
    exact hstart i id seconds (Nat.le_trans (length_after scene move) hi)

end Scene

end AliasGate.Storage
