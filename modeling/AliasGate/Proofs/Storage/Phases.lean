import AliasGate.Proofs.Storage.Interleaving

/-!
# Phases of look-ups and deletions

While no command fails, a look-up and a deletion go through few phases, each with one step to the
next.

* `Seeking` and `Erasing`: the phases, with what is left to do in each (`rest`), the phase after it
  (`next`) and what the step to it does to table and cache (`effect`).
* `Seeking.session_step` and `Erasing.session_step`: the programs take exactly these steps.
* `Erasing.Stands`: what is known of rows and trust in each phase of a deletion. Its own steps and
  those of look-ups keep it.
-/

namespace AliasGate.Storage

open Connection

/-! ## Steps without faults -/

theorem after_never (k : Kind) : Plan.never.after k = Plan.never := by
  funext k'
  simp [Plan.after, Plan.never]

variable {α β γ : Type} {c c' : Connection}

/-- Where nothing fails by plan, a command has its effect, and noting it changes only the log. -/
theorem carryOut_never (hplan : c.backend.plan = .never) (cmd : Command) :
    c.carryOut cmd = effect { c with log := c.log ++ [(cmd, false)] } cmd := by
  have hfails : c.failsNext cmd = false := by
    unfold failsNext
    rw [hplan]
    cases cmd <;> rfl
  have hafter : cmd.kind?.elim c.backend.plan c.backend.plan.after = c.backend.plan := by
    rw [hplan]
    cases cmd <;> first | rfl | exact after_never _
  rw [carryOut_effect hfails]
  unfold noted
  rw [hfails, hafter]

theorem bind_assoc (p : Program α) (f : α → Program β) (g : β → Program γ) :
    p >>= f >>= g = p >>= fun a => f a >>= g := by
  show (p.bind f).bind g = p.bind fun a => (f a).bind g
  induction p with
  | done a => rfl
  | raise fault => rfl
  | command c next ih => exact congrArg (Program.command c) (funext ih)
  | stage id s next ih => exact congrArg (Program.stage id s) ih
  | distrusted next ih => exact congrArg Program.distrusted (funext ih)
  | distrust ids next ih => exact congrArg (Program.distrust ids) ih
  | trust ids next ih => exact congrArg (Program.trust ids) ih

variable {cmd : Command} {reply : cmd.Reply}

/-- A program that begins with a command carries it out in front of what follows. -/
theorem step_bind {p : Program α} {next : Except Fault cmd.Reply → Program α}
    (h : p = .command cmd next) (f : α → Program β) (c : Connection) :
    step (p >>= f) c = (next (c.carryOut cmd).1 >>= f, (c.carryOut cmd).2) := by
  rw [h]
  rfl

theorem step_demand (h : c.carryOut cmd = (.ok reply, c')) (f : cmd.Reply → Program β) :
    step (Program.demand cmd >>= f) c = (f reply, c') := by
  rw [step_bind (p := Program.demand cmd) rfl f c, h]
  rfl

theorem step_demandOrRollback (h : c.carryOut cmd = (.ok reply, c')) (f : cmd.Reply → Program β) :
    step (Program.demandOrRollback cmd >>= f) c = (f reply, c') := by
  rw [step_bind (p := Program.demandOrRollback cmd) rfl f c, h]
  rfl

/-- An eviction deletes the entries at its first attempt; then the ids are to be trusted. -/
theorem step_evict (hplan : c.backend.plan = .never) (seconds : Int) {ids : List Text}
    (hids : ids ≠ []) (f : Bool → Program β) :
    step (evict (some seconds) ids >>= f) c =
      (.trust ids (f true),
        { c with
          backend := { c.backend with cache := Keyed.without c.backend.cache (ids.map cacheKey) }
          log := c.log ++ [(.cacheDelete (ids.map cacheKey), false)] }) := by
  have hevict : evict (some seconds) ids =
      deleteEntries (ids.map cacheKey) evictionAttempts >>= fun gone =>
        if gone then .trust ids (pure true) else .distrust ids (pure false) :=
    if_neg (by simpa using hids)
  have hstep := step_bind
    (p := deleteEntries (ids.map cacheKey) evictionAttempts >>= fun gone =>
      if gone then .trust ids (pure true) else .distrust ids (pure false))
    rfl f c
  rw [carryOut_never hplan] at hstep
  rw [hevict, hstep]
  rfl

/-! ## Phases of a look-up -/

/-- How far a look-up has come. -/
inductive Seeking where
  | beginning
  | evicting
  | trusting
  | asking
  | selecting
  /-- The row is written to the cache next. -/
  | filling (s : ShortUrl) (text : Text) (h : s.written = .ok text)
  | ended (found : Except Fault (Option ShortUrl))

namespace Seeking

/-- What is left to do once it is known whether the cache may be asked. -/
def consult (id : Text) (cache : Option Int) : Program (Option ShortUrl) :=
  if cache = none then lookupRow none id
  else do
    match ← Program.demand (.cacheGet (cacheKey id)) with
    | some (c :: text) => some <$> readEntry (c :: text)
    | _ => lookupRow cache id

/-- What is left to do in a phase. -/
def rest (seconds : Int) (id : Text) : Seeking → Program (Option ShortUrl)
  | beginning => lookup (some seconds) id
  | evicting =>
    (do if ← evict (some seconds) [id] then pure (some seconds) else pure none) >>= consult id
  | trusting => .trust [id] (consult id (some seconds))
  | asking => consult id (some seconds)
  | selecting => lookupRow (some seconds) id
  | filling s text _ => do
    Program.demand (.cacheSet (cacheKey id) text seconds)
    pure (some s)
  | ended (.ok found) => .done found
  | ended (.error fault) => .raise fault

/-- What is left to do once the cache has answered. -/
def answered (seconds : Int) (id : Text) : Option Text → Program (Option ShortUrl)
  | some (c :: text) => some <$> readEntry (c :: text)
  | _ => lookupRow (some seconds) id

/-- What is left to do once the table has answered. -/
def selected (seconds : Int) (id : Text) : List (Text × ShortUrl) → Program (Option ShortUrl)
  | [] => pure none
  | (_, s) :: _ => fillCache seconds id s >>= fun _ => pure (some s)

/-- What an entry of the cache is read as. -/
def ofEntry (text : Text) : Except Fault (Option ShortUrl) :=
  match ShortUrl.ofStored (WideText.ofText text) with
  | .ok s => .ok (some s)
  | .error refusal => .error (.defect refusal.defect)

/-- The phase after a row has been found. -/
def ofRow (s : ShortUrl) : Seeking :=
  match h : s.written with
  | .ok text => filling s text h
  | .error reason => ended (.error (.defect (.unwritable reason)))

/-- The next phase. -/
def next (id : Text) (b : Backend) : Seeking → Seeking
  | beginning => if id ∈ b.distrusted then evicting else asking
  | evicting => trusting
  | trusting => asking
  | asking =>
    match Keyed.get? b.cache (cacheKey id) with
    | some (c :: text) => ended (ofEntry (c :: text))
    | _ => selecting
  | selecting =>
    match Keyed.get? b.table id with
    | none => ended (.ok none)
    | some s => ofRow s
  | filling s _ _ => ended (.ok (some s))
  | ended found => ended found

/-- Table and cache after the step to the next phase. -/
def effect (id : Text) (b : Backend) : Seeking → Backend
  | evicting => { b with cache := Keyed.without b.cache [cacheKey id] }
  | trusting => { b with distrusted := b.distrusted.filter (· ∉ [id]) }
  | filling _ text _ => { b with cache := Keyed.put b.cache (cacheKey id) text }
  | _ => b

theorem rest_ofEntry (seconds : Int) (id text : Text) :
    (ended (ofEntry text)).rest seconds id = some <$> readEntry text := by
  unfold ofEntry readEntry
  cases ShortUrl.ofStored (WideText.ofText text) <;> rfl

theorem rest_ofRow (seconds : Int) (id : Text) (s : ShortUrl) :
    (ofRow s).rest seconds id = fillCache seconds id s >>= fun _ => pure (some s) := by
  unfold ofRow
  split
  · next text hw =>
    have hfill : fillCache seconds id s = Program.demand (.cacheSet (cacheKey id) text seconds) := by
      unfold fillCache
      rw [hw]
    rw [hfill]
    rfl
  · next reason hw =>
    have hraise : fillCache seconds id s = .raise (.defect (.unwritable reason)) := by
      unfold fillCache
      rw [hw]
    rw [hraise]
    rfl

theorem rest_asking (seconds : Int) (id : Text) : asking.rest seconds id =
    Program.demand (.cacheGet (cacheKey id)) >>= answered seconds id := by
  show Program.demand (.cacheGet (cacheKey id)) >>= _ = _
  congr 1
  funext entry
  rcases entry with _ | (_ | _) <;> rfl

theorem rest_selecting (seconds : Int) (id : Text) : selecting.rest seconds id =
    Program.demand (.select (.ofId id)) >>= selected seconds id := by
  show Program.demand (.select (.ofId id)) >>= _ = _
  congr 1
  funext rows
  rcases rows with _ | _ <;> rfl

/-- **Steps of a look-up.** -/
theorem step_rest (hplan : c.backend.plan = .never) (seconds : Int) (id : Text) (p : Seeking) :
    ∃ log, step (p.rest seconds id) c =
      ((p.next id c.backend).rest seconds id, ⟨p.effect id c.backend, c.pending, log⟩) := by
  cases p with
  | beginning =>
    refine ⟨c.log, ?_⟩
    have hstep : step (beginning.rest seconds id) c =
        ((if id ∈ c.backend.distrusted then
            (do if ← evict (some seconds) [id] then pure (some seconds) else pure none)
          else pure (some seconds)) >>= consult id, c) := rfl
    rw [hstep]
    unfold next
    by_cases hid : id ∈ c.backend.distrusted
    · rw [if_pos hid, if_pos hid]
      rfl
    · rw [if_neg hid, if_neg hid]
      rfl
  | evicting =>
    have hrest : evicting.rest seconds id = evict (some seconds) [id] >>= fun gone =>
        (if gone then pure (some seconds) else pure none) >>= consult id := bind_assoc _ _ _
    rw [hrest, step_evict hplan seconds (by simp)]
    exact ⟨_, rfl⟩
  | trusting => exact ⟨c.log, rfl⟩
  | asking =>
    rw [rest_asking, step_demand (carryOut_never hplan (.cacheGet (cacheKey id)))]
    unfold next
    rcases Keyed.get? c.backend.cache (cacheKey id) with _ | (_ | ⟨char, text⟩)
    · exact ⟨_, rfl⟩
    · exact ⟨_, rfl⟩
    · rw [rest_ofEntry]
      exact ⟨_, rfl⟩
  | selecting =>
    have hrow := select_ofId c.backend.table id
    rw [rest_selecting, step_demand (carryOut_never hplan (.select (.ofId id)))]
    unfold next
    rw [← hrow]
    rcases c.backend.table.filter (Selection.ofId id).holds with _ | ⟨⟨_, s⟩, _⟩
    · exact ⟨_, rfl⟩
    · simp only [List.head?_cons, Option.map_some, rest_ofRow]
      exact ⟨_, rfl⟩
  | filling s text h =>
    rw [rest, step_demand (carryOut_never hplan (.cacheSet (cacheKey id) text seconds))]
    exact ⟨_, rfl⟩
  | ended found => cases found <;> exact ⟨c.log, rfl⟩

theorem session_step {b : Backend} (hplan : b.plan = .never) (seconds : Int) (id : Text)
    (p : Seeking) :
    Session.step ⟨p.rest seconds id, []⟩ b =
      (⟨(p.next id b).rest seconds id, []⟩, p.effect id b) := by
  obtain ⟨log, hstep⟩ :=
    step_rest (c := ⟨b, [], []⟩) hplan seconds id p
  unfold Session.step
  rw [hstep]

variable (id : Text) (b : Backend) (p : Seeking)

@[simp] theorem effect_table : (p.effect id b).table = b.table := by cases p <;> rfl

@[simp] theorem effect_plan : (p.effect id b).plan = b.plan := by cases p <;> rfl

/-- No step of a look-up distrusts an id. -/
theorem effect_distrusted : (p.effect id b).distrusted ⊆ b.distrusted := by
  cases p with
  | trusting => exact fun _ h => (List.mem_filter.mp h).1
  | _ => exact fun _ h => h

end Seeking

/-! ## Phases of a deletion -/

/-- How far a deletion has come, and the ids of the rows if there are any. -/
inductive Erasing where
  | selecting
  | evicting (ids : List Text) (h : ids ≠ [])
  | trusting (ids : List Text) (h : ids ≠ [])
  | erasing (ids : List Text) (h : ids ≠ [])
  | committing (ids : List Text) (h : ids ≠ [])
  | evictingAgain (ids : List Text) (h : ids ≠ [])
  | trustingAgain (ids : List Text) (h : ids ≠ [])
  | ended (count : Nat)

namespace Erasing

variable (seconds : Int) (user image : Text) (id : Option Text)

/-- What is left to do once the rows are gone. -/
def evictAgain (ids : List Text) : Program Nat := do
  let _ ← evict (some seconds) ids
  pure ids.length

/-- What is left to do once the entries have been evicted the first time. -/
def eraseRows (ids : List Text) : Program Nat := do
  Program.demandOrRollback (.erase (.ofImage user image id))
  Program.demandOrRollback .commit
  evictAgain seconds ids

/-- What is left to do in a phase. -/
def rest : Erasing → Program Nat
  | selecting => delete (some seconds) user image id
  | evicting ids _ => evict (some seconds) ids >>= fun _ => eraseRows seconds user image id ids
  | trusting ids _ => .trust ids (eraseRows seconds user image id ids)
  | erasing ids _ => eraseRows seconds user image id ids
  | committing ids _ => Program.demandOrRollback .commit >>= fun _ => evictAgain seconds ids
  | evictingAgain ids _ => evictAgain seconds ids
  | trustingAgain ids _ => .trust ids (pure ids.length)
  | ended count => .done count

/-- The changes that wait in a phase. -/
def pending : Erasing → List Change
  | committing _ _ => [.erase (.ofImage user image id)]
  | _ => []

/-- The ids of the rows to be deleted. -/
def doomedIds (b : Backend) : List Text :=
  (b.table.filter (Selection.ofImage user image id).holds).map (·.1)

/-- The next phase. -/
def next (b : Backend) : Erasing → Erasing
  | selecting =>
    if h : doomedIds user image id b = [] then ended 0 else evicting (doomedIds user image id b) h
  | evicting ids h => trusting ids h
  | trusting ids h => erasing ids h
  | erasing ids h => committing ids h
  | committing ids h => evictingAgain ids h
  | evictingAgain ids h => trustingAgain ids h
  | trustingAgain ids _ => ended ids.length
  | ended count => ended count

/-- Table and cache after the step to the next phase. -/
def effect (b : Backend) : Erasing → Backend
  | evicting ids _ => { b with cache := Keyed.without b.cache (ids.map cacheKey) }
  | trusting ids _ => { b with distrusted := b.distrusted.filter (· ∉ ids) }
  | committing _ _ => { b with table := b.table.erase user image id }
  | evictingAgain ids _ => { b with cache := Keyed.without b.cache (ids.map cacheKey) }
  | trustingAgain ids _ => { b with distrusted := b.distrusted.filter (· ∉ ids) }
  | _ => b

variable {user image id}

theorem filter_ofImage (table : Store) :
    table.filter (fun row => !(Selection.ofImage user image id).holds row) =
      table.erase user image id :=
  List.filter_congr fun row _ => by rw [holds_ofImage]

/-- **Steps of a deletion.** -/
theorem step_rest {p : Erasing} (hplan : c.backend.plan = .never)
    (hpending : c.pending = p.pending user image id) :
    ∃ log, step (p.rest seconds user image id) c =
      ((p.next user image id c.backend).rest seconds user image id,
        ⟨p.effect user image id c.backend,
          (p.next user image id c.backend).pending user image id, log⟩) := by
  obtain ⟨b, pending, log⟩ := c
  obtain rfl : pending = p.pending user image id := hpending
  cases p with
  | selecting =>
    have hselect : selecting.rest seconds user image id =
        Program.demandOrRollback (.select (.ofImage user image id)) >>= fun rows =>
          if rows.map (·.1) = [] then pure 0
          else evict (some seconds) (rows.map (·.1)) >>= fun _ =>
            eraseRows seconds user image id (rows.map (·.1)) := rfl
    rw [hselect, step_demandOrRollback (carryOut_never hplan (.select (.ofImage user image id)))]
    refine ⟨log ++ [(.select (.ofImage user image id), false)], ?_⟩
    show ((if doomedIds user image id b = [] then _ else _), _) = _
    unfold next
    by_cases hids : doomedIds user image id b = []
    · rw [dif_pos hids, if_pos hids]
      rfl
    · rw [dif_neg hids, if_neg hids]
      rfl
  | evicting ids h =>
    rw [rest, step_evict hplan seconds h]
    exact ⟨_, rfl⟩
  | trusting ids h => exact ⟨log, rfl⟩
  | erasing ids h =>
    rw [rest, eraseRows, step_demandOrRollback (carryOut_never hplan _)]
    exact ⟨_, rfl⟩
  | committing ids h =>
    have hcommit := commit_ok (c := ⟨b, [.erase (.ofImage user image id)], log ++ [(.commit, false)]⟩)
      rfl rfl
    rw [filter_ofImage] at hcommit
    rw [rest, step_demandOrRollback ((carryOut_never hplan .commit).trans hcommit)]
    exact ⟨_, rfl⟩
  | evictingAgain ids h =>
    rw [rest, evictAgain, step_evict hplan seconds h]
    exact ⟨_, rfl⟩
  | trustingAgain ids h => exact ⟨log, rfl⟩
  | ended count => exact ⟨log, rfl⟩

theorem session_step {b : Backend} (hplan : b.plan = .never) (p : Erasing) :
    Session.step ⟨p.rest seconds user image id, p.pending user image id⟩ b =
      (⟨(p.next user image id b).rest seconds user image id,
        (p.next user image id b).pending user image id⟩, p.effect user image id b) := by
  obtain ⟨log, hstep⟩ := step_rest (c := ⟨b, p.pending user image id, []⟩) seconds hplan rfl
  unfold Session.step
  rw [hstep]

/-- What table and cache have in a phase of a deletion that began with the table of `b₀`. -/
def Stands (user image : Text) (id : Option Text) (b₀ b : Backend) : Erasing → Prop
  | selecting => b.table = b₀.table
  | evicting ids _ | trusting ids _ => ids = doomedIds user image id b₀ ∧ b.table = b₀.table
  | erasing ids _ | committing ids _ =>
    ids = doomedIds user image id b₀ ∧ b.table = b₀.table ∧ ∀ x ∈ ids, x ∉ b.distrusted
  | evictingAgain ids _ | trustingAgain ids _ =>
    ids = doomedIds user image id b₀ ∧ b.table = b₀.table.erase user image id ∧
      ∀ x ∈ ids, x ∉ b.distrusted
  | ended _ =>
    b.table = b₀.table.erase user image id ∧ ∀ x ∈ doomedIds user image id b₀, x ∉ b.distrusted

variable {b₀ b b' : Backend} {p : Erasing}

/-- Rows that stay as they are, and less distrust, change nothing. -/
theorem Stands.of_others (h : p.Stands user image id b₀ b) (htable : b'.table = b.table)
    (hdistrusted : b'.distrusted ⊆ b.distrusted) : p.Stands user image id b₀ b' := by
  cases p with
  | selecting => exact htable.trans h
  | evicting ids _ => exact ⟨h.1, htable.trans h.2⟩
  | trusting ids _ => exact ⟨h.1, htable.trans h.2⟩
  | erasing ids _ => exact ⟨h.1, htable.trans h.2.1, fun x hx hd => h.2.2 x hx (hdistrusted hd)⟩
  | committing ids _ => exact ⟨h.1, htable.trans h.2.1, fun x hx hd => h.2.2 x hx (hdistrusted hd)⟩
  | evictingAgain ids _ =>
    exact ⟨h.1, htable.trans h.2.1, fun x hx hd => h.2.2 x hx (hdistrusted hd)⟩
  | trustingAgain ids _ =>
    exact ⟨h.1, htable.trans h.2.1, fun x hx hd => h.2.2 x hx (hdistrusted hd)⟩
  | ended count => exact ⟨htable.trans h.1, fun x hx hd => h.2 x hx (hdistrusted hd)⟩

/-- Each step of the deletion leads to what the next phase has. -/
theorem Stands.step (h : p.Stands user image id b₀ b) :
    (p.next user image id b).Stands user image id b₀ (p.effect user image id b) := by
  cases p with
  | selecting =>
    have hids : doomedIds user image id b = doomedIds user image id b₀ := by
      unfold doomedIds
      rw [show b.table = b₀.table from h]
    unfold next
    by_cases hnone : doomedIds user image id b = []
    · rw [dif_pos hnone]
      refine ⟨?_, fun x hx => ?_⟩
      · rw [← filter_ofImage, ← show b.table = b₀.table from h]
        refine (List.filter_eq_self.mpr fun row hrow => ?_).symm
        have hnil := List.map_eq_nil_iff.mp hnone
        cases hholds : (Selection.ofImage user image id).holds row with
        | false => rfl
        | true =>
          have hmem := List.mem_filter.mpr ⟨hrow, hholds⟩
          exact absurd (hnil ▸ hmem) List.not_mem_nil
      · rw [← hids, hnone] at hx
        exact absurd hx List.not_mem_nil
    · rw [dif_neg hnone]
      exact ⟨hids, h⟩
  | evicting ids _ => exact h
  | trusting ids _ =>
    refine ⟨h.1, h.2, fun x hx hd => ?_⟩
    exact of_decide_eq_true (List.mem_filter.mp hd).2 hx
  | erasing ids _ => exact h
  | committing ids _ => exact ⟨h.1, congrArg (Store.erase · user image id) h.2.1, h.2.2⟩
  | evictingAgain ids _ => exact h
  | trustingAgain ids _ =>
    refine ⟨h.2.1, fun x hx hd => ?_⟩
    exact of_decide_eq_true (List.mem_filter.mp hd).2 (h.1 ▸ hx)
  | ended count => exact h

/-- Only a deletion that has ended is done. -/
theorem eq_ended_of_rest {count : Nat} (h : p.rest seconds user image id = .done count) :
    p = ended count := by
  have hevict : ∀ (ids : List Text) (f : Bool → Program Nat), ids ≠ [] →
      evict (some seconds) ids >>= f ≠ .done count := by
    intro ids f hids hdone
    rw [show evict (some seconds) ids = _ from if_neg (by simpa using hids)] at hdone
    cases hdone
  cases p with
  | selecting => cases h
  | evicting ids hids => exact absurd h (hevict ids _ hids)
  | trusting ids _ => cases h
  | erasing ids _ => cases h
  | committing ids _ => cases h
  | evictingAgain ids hids => exact absurd h (hevict ids _ hids)
  | trustingAgain ids _ => cases h
  | ended count' =>
    cases h
    rfl

end Erasing

end AliasGate.Storage
