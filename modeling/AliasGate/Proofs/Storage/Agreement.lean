import AliasGate.Json.Reader
import AliasGate.Proofs.Json.Writing
import AliasGate.Proofs.ShortUrl.Records
import AliasGate.Proofs.Storage.Coherence
import AliasGate.Proofs.Storage.Phases

/-!
# Agreement of cached and uncached look-ups

A short URL is stored under a new id and looked up, while nothing fails: first in its row, which
fills the cache, then in its cache entry.

* `Connection.execute_lookup_row` and `execute_lookup_entry`: a look-up in either case.
* `Look.play_serves`: what one look-up finds; `Look.serves_afterTurns`: what many leave behind.
* `found_first`, `found_later`: what is found of a short URL that holds texts only.
* `recalls_iff_isPortable`: which short URLs are found as they were stored, however often they are
  looked up.
-/

namespace AliasGate.Storage

open WideText (ofText)

/-- The cache entry that a look-up of an id reads. -/
def Backend.cached? (b : Backend) (id : Text) : Option Text :=
  if id ∈ b.distrusted then none else Keyed.get? b.cache (cacheKey id)

namespace Connection

variable {c : Connection} {id text : Text} {s : ShortUrl}

/-! ## One look-up -/

/-- The look-up read the row and wrote it to the cache. -/
def IsFromRow (c : Connection) (id : Text) : Prop :=
  (Command.select (.ofId id), false) ∈ c.log ∧
    ∃ text seconds, (Command.cacheSet (cacheKey id) text seconds, false) ∈ c.log

/-- The look-up did nothing but to read the cache entry. -/
def IsFromEntry (c : Connection) (id : Text) : Prop :=
  c.log = [(Command.cacheGet (cacheKey id), false)]

/-- While nothing fails a look-up is given the cache, in which an entry that was not trusted is
gone. -/
theorem execute_trustedCache (hplan : c.backend.plan = .never) (seconds : Int) (id : Text) :
    ∃ c', execute (trustedCache (some seconds) id) c = (.ok (some seconds), c') ∧
      c'.backend.plan = .never ∧ c'.backend.table = c.backend.table ∧
      id ∉ c'.backend.distrusted ∧
      Keyed.get? c'.backend.cache (cacheKey id) = c.backend.cached? id ∧
      (c.backend.cached? id ≠ none → c' = c) := by
  have htrusted : execute (trustedCache (some seconds) id) c =
      execute (if id ∈ c.backend.distrusted then
          (do if ← evict (some seconds) [id] then pure (some seconds) else pure none)
        else pure (some seconds)) c := rfl
  rw [htrusted]
  unfold Backend.cached?
  by_cases hid : id ∈ c.backend.distrusted
  · rw [if_pos hid, if_pos hid, ← execute_step, step_evict hplan seconds (List.cons_ne_nil id [])]
    refine ⟨_, rfl, hplan, rfl, ?_, ?_, fun h => absurd rfl h⟩
    · show id ∉ c.backend.distrusted.filter (· ∉ [id])
      simp
    · show Keyed.get? (Keyed.without c.backend.cache ([id].map cacheKey)) (cacheKey id) = none
      rw [Keyed.get?_without, if_pos (by simp)]
  · rw [if_neg hid, if_neg hid]
    exact ⟨c, rfl, hplan, rfl, hid, rfl, fun _ => rfl⟩

/-- A trusted entry is read, and nothing else happens. -/
theorem execute_lookup_entry (hplan : c.backend.plan = .never) (seconds : Int) (hne : text ≠ [])
    (hentry : c.backend.cached? id = some text) :
    execute (lookup (some seconds) id) c =
      (Seeking.ofEntry text, { c with log := c.log ++ [(.cacheGet (cacheKey id), false)] }) := by
  obtain ⟨c', htrusted, -, -, -, hget, hsame⟩ := execute_trustedCache hplan seconds id
  obtain rfl := hsame (by simp [hentry])
  obtain ⟨char, text, rfl⟩ := List.exists_cons_of_ne_nil hne
  rw [hentry] at hget
  unfold lookup
  rw [execute_bind, htrusted, Action.andThen_ok, perform_run, if_neg (by simp), execute_bind,
    execute_demand, carryOut_never hplan]
  simp only [effect, hget, Action.andThen_ok, perform_run]
  rw [execute_map]
  unfold readEntry Seeking.ofEntry
  cases ShortUrl.ofStored (ofText (char :: text)) <;> rfl

/-- Without an entry the row is selected, and the cache is filled next. -/
theorem execute_lookup_miss (hplan : c.backend.plan = .never) (seconds : Int)
    (hentry : c.backend.cached? id = none) (hrow : Keyed.get? c.backend.table id = some s) :
    ∃ c', execute (lookup (some seconds) id) c =
        execute (fillCache seconds id s >>= fun _ => pure (some s)) c' ∧
      c'.backend.plan = .never ∧ c'.backend.table = c.backend.table ∧
      id ∉ c'.backend.distrusted ∧ (Command.select (.ofId id), false) ∈ c'.log := by
  obtain ⟨c', htrusted, hplan', htable, hid, hget, -⟩ := execute_trustedCache hplan seconds id
  have hselect := select_ofId c'.backend.table id
  rw [htable, hrow] at hselect
  rw [hentry] at hget
  obtain ⟨c₁, hc₁⟩ : ∃ c₁ : Connection, c₁ =
      { c' with log := c'.log ++ [(.cacheGet (cacheKey id), false)] } := ⟨_, rfl⟩
  have hask : execute (lookup (some seconds) id) c = execute (lookupRow (some seconds) id) c₁ := by
    unfold lookup
    rw [execute_bind, htrusted, Action.andThen_ok, perform_run, if_neg (by simp), execute_bind,
      execute_demand, carryOut_never hplan']
    simp only [effect, hget, Action.andThen_ok, perform_run, hc₁]
  have hplan₁ : c₁.backend.plan = .never := by rw [hc₁]; exact hplan'
  have htable₁ : c₁.backend.table = c.backend.table := by rw [hc₁]; exact htable
  refine ⟨{ c₁ with log := c₁.log ++ [(.select (.ofId id), false)] }, ?_, hplan₁, htable₁, ?_, ?_⟩
  · unfold lookupRow at hask
    rw [hask, execute_bind, execute_demand, carryOut_never hplan₁]
    simp only [effect, Action.andThen_ok, perform_run, htable₁]
    generalize c.backend.table.filter (Selection.ofId id).holds = rows at hselect
    rcases rows with _ | ⟨⟨_, s'⟩, rows⟩
    · cases hselect
    · obtain rfl := Option.some.inj hselect
      rfl
  · rw [hc₁]
    exact hid
  · exact List.mem_append_right _ List.mem_cons_self

/-- Without an entry the row is read, and its text is written to the cache. -/
theorem execute_lookup_row (hplan : c.backend.plan = .never) (seconds : Int)
    (hentry : c.backend.cached? id = none) (hrow : Keyed.get? c.backend.table id = some s)
    (hw : s.written = .ok text) :
    ∃ c', execute (lookup (some seconds) id) c = (.ok (some s), c') ∧
      c'.backend.table = c.backend.table ∧ c'.backend.cached? id = some text ∧ c'.IsFromRow id := by
  obtain ⟨c', hmiss, hplan', htable, hid, hlog⟩ := execute_lookup_miss hplan seconds hentry hrow
  have hfill : fillCache seconds id s = Program.demand (.cacheSet (cacheKey id) text seconds) := by
    unfold fillCache
    rw [hw]
  rw [hmiss, hfill, execute_bind, execute_demand, carryOut_never hplan']
  refine ⟨_, rfl, htable, ?_, List.mem_append_left _ hlog, text, seconds,
    List.mem_append_right _ List.mem_cons_self⟩
  show (if id ∈ c'.backend.distrusted then none
    else Keyed.get? (Keyed.put c'.backend.cache (cacheKey id) text) (cacheKey id)) = some text
  rw [if_neg hid, Keyed.get?_put, if_pos rfl]

/-- A row without a text is not found. -/
theorem execute_lookup_unwritable (hplan : c.backend.plan = .never) (seconds : Int)
    (hentry : c.backend.cached? id = none) (hrow : Keyed.get? c.backend.table id = some s)
    {e : Json.Unwritable} (hw : s.written = .error e) :
    (execute (lookup (some seconds) id) c).1 = .error (.defect (.unwritable e)) := by
  obtain ⟨c', hmiss, -⟩ := execute_lookup_miss hplan seconds hentry hrow
  have hfill : fillCache seconds id s = .raise (.defect (.unwritable e)) := by
    unfold fillCache
    rw [hw]
  rw [hmiss, hfill]
  rfl

end Connection

/-! ## Many look-ups -/

/-- The row of an id is a short URL, and a trusted cache entry of the id, if there is one, is the
given text. -/
structure Backend.Serves (b : Backend) (id : Text) (s : ShortUrl) (text : Text) : Prop where
  row : Keyed.get? b.table id = some s
  entry : b.cached? id = none ∨ b.cached? id = some text

/-- A look-up with a cache, while nothing fails. -/
structure Look where
  seconds : Int
  /-- The keys of cache entries that ran out before it. -/
  expired : List Text

namespace Look

variable {b : Backend} {id text : Text} {s u : ShortUrl}

/-- The look-up of an id. -/
def turn (id : Text) (l : Look) : Turn := ⟨.lookup id, some l.seconds, .never, l.expired⟩

/-- The turn is the program in its session. -/
theorem play_turn (l : Look) (b : Backend) (id : Text) :
    (l.turn id).play b =
      Connection.execute (lookup (some l.seconds) id) ((l.turn id).session b) := rfl

theorem cached?_session (l : Look) (b : Backend) (id : Text) :
    ((l.turn id).session b).backend.cached? id =
      if cacheKey id ∈ l.expired then none else b.cached? id := by
  show (if id ∈ b.distrusted then none
    else Keyed.get? (Keyed.without b.cache l.expired) (cacheKey id)) = _
  rw [Keyed.get?_without]
  unfold Backend.cached?
  by_cases hid : id ∈ b.distrusted <;> simp [hid]

/-- After a look-up the cache has the text of the row. -/
theorem serves_leaves (hw : s.written = .ok text) (hb : b.Serves id s text) (l : Look) :
    ((l.turn id).leaves b).Serves id s text ∧ ((l.turn id).leaves b).cached? id = some text := by
  have hne : text ≠ [] := Json.write_obj_ne_nil hw
  have hplan : ((l.turn id).session b).backend.plan = .never := rfl
  have hsession := cached?_session l b id
  suffices h : ((l.turn id).leaves b).table = b.table ∧
      ((l.turn id).leaves b).cached? id = some text from ⟨⟨h.1 ▸ hb.row, .inr h.2⟩, h.2⟩
  unfold Turn.leaves
  rw [play_turn]
  by_cases hentry : ((l.turn id).session b).backend.cached? id = none
  · obtain ⟨c', hlookup, htable, hfilled, -⟩ :=
      Connection.execute_lookup_row hplan l.seconds hentry hb.row hw
    rw [hlookup]
    exact ⟨htable, hfilled⟩
  · have hsome : ((l.turn id).session b).backend.cached? id = some text := by
      rw [hsession] at hentry ⊢
      split at hentry
      · exact absurd rfl hentry
      next hexpired =>
        rw [if_neg hexpired]
        exact hb.entry.resolve_left hentry
    rw [Connection.execute_lookup_entry hplan l.seconds hne hsome]
    exact ⟨rfl, hsome⟩

/-- After look-ups the cache has the text of the row, if there were any. -/
theorem serves_afterTurns (hw : s.written = .ok text) (hb : b.Serves id s text)
    (looks : List Look) :
    (afterTurns (looks.map (turn id)) b).Serves id s text ∧
      (looks ≠ [] → (afterTurns (looks.map (turn id)) b).cached? id = some text) := by
  -- the cache is empty for the id before the first look-up only
  induction looks generalizing b with
  | nil => exact ⟨hb, fun h => absurd rfl h⟩
  | cons l looks ih =>
    obtain ⟨hserves, hfilled⟩ := serves_leaves hw hb l
    obtain ⟨hall, hlater⟩ := ih hserves
    refine ⟨hall, fun _ => ?_⟩
    by_cases hnone : looks = []
    · subst hnone
      exact hfilled
    · exact hlater hnone

/-- A look-up finds the row, or what the text of the row is read as. -/
theorem play_serves (hw : s.written = .ok text) (hb : b.Serves id s text) (l : Look) :
    (b.cached? id = none ∨ cacheKey id ∈ l.expired) ∧
        ((l.turn id).play b).1 = .ok (some s) ∧ ((l.turn id).play b).2.IsFromRow id ∨
      (b.cached? id = some text ∧ cacheKey id ∉ l.expired) ∧
        ((l.turn id).play b).1 = Seeking.ofEntry text ∧
        ((l.turn id).play b).2.IsFromEntry id := by
  have hplan : ((l.turn id).session b).backend.plan = .never := rfl
  have hsession := cached?_session l b id
  rw [play_turn]
  by_cases hentry : b.cached? id = none ∨ cacheKey id ∈ l.expired
  · have hnone : ((l.turn id).session b).backend.cached? id = none := by
      rw [hsession]
      rcases hentry with h | h <;> simp [h]
    obtain ⟨c', hlookup, -, -, hfrom⟩ :=
      Connection.execute_lookup_row hplan l.seconds hnone hb.row hw
    rw [hlookup]
    exact .inl ⟨hentry, rfl, hfrom⟩
  · obtain ⟨hentry, hexpired⟩ := not_or.mp hentry
    have hsome := hb.entry.resolve_left hentry
    rw [if_neg hexpired, hsome] at hsession
    rw [Connection.execute_lookup_entry hplan l.seconds (Json.write_obj_ne_nil hw) hsession]
    exact .inr ⟨⟨hsome, hexpired⟩, rfl, rfl⟩

end Look

/-! ## Storing and looking up -/

/-- An insertion with a cache, while nothing fails. -/
def insertion (id : Text) (s : ShortUrl) (seconds : Int) : Turn :=
  ⟨.insert id s, some seconds, .never, []⟩

/-- However often it is looked up, the short URL is found under the id as it is: the first time in
its row, which fills the cache, and later in its cache entry unless that ran out. -/
structure Backend.Recalls (b : Backend) (id : Text) (s : ShortUrl) : Prop where
  found : ∀ (earlier : List Look) (l : Look),
    ((l.turn id).play (afterTurns (earlier.map (Look.turn id)) b)).1 = .ok (some s)
  first : ∀ l : Look, ((l.turn id).play b).2.IsFromRow id
  later : ∀ (earlier : List Look) (l : Look), earlier ≠ [] → cacheKey id ∉ l.expired →
    ((l.turn id).play (afterTurns (earlier.map (Look.turn id)) b)).2.IsFromEntry id

variable {b : Backend} {id : Text} {s : ShortUrl}

theorem execute_insertion (hid : id ∉ Keyed.keys b.table) (s : ShortUrl) (seconds : Int) :
    (Connection.isEncodable s = true → ∃ c', (insertion id s seconds).play b = (.ok (), c') ∧
      c'.backend.table = b.table ++ [(id, s.joinPairs)] ∧
      c'.backend.cached? id = b.cached? id) ∧
    (Connection.isEncodable s ≠ true → ((insertion id s seconds).play b).1 ≠ .ok ()) := by
  have hplay : (insertion id s seconds).play b =
      Connection.execute (insert id s) ((insertion id s seconds).session b) := rfl
  have hfails : ¬((insertion id s seconds).session b).failsNext .commit = true :=
    Bool.false_ne_true
  have hfree : id ∉ Keyed.keys ((insertion id s seconds).session b).backend.table := hid
  rw [hplay, Connection.execute_insert rfl, if_neg hfails]
  constructor
  · intro hencodable
    rw [if_neg (by simp [hencodable]), if_neg hfree]
    refine ⟨_, rfl, rfl, ?_⟩
    show (if id ∈ b.distrusted then none
      else Keyed.get? (Keyed.without b.cache []) (cacheKey id)) = _
    rw [Keyed.get?_without, if_neg List.not_mem_nil]
    rfl
  · intro hencodable h
    rw [if_pos (by simpa using hencodable)] at h
    cases h

/-- A new id has no trusted cache entry. -/
theorem Backend.Coherent.cached?_eq_none (hb : b.Coherent) (hid : id ∉ Keyed.keys b.table) :
    b.cached? id = none := by
  unfold Backend.cached?
  by_cases hdistrusted : id ∈ b.distrusted
  · exact if_pos hdistrusted
  · rw [if_neg hdistrusted]
    cases hget : Keyed.get? b.cache (cacheKey id) with
    | none => rfl
    | some text =>
      obtain ⟨s, hs, -⟩ := hb.written id text ⟨Keyed.mem_of_get? hget, hdistrusted⟩
      rw [(Keyed.get?_eq_none_iff _ _).mpr hid] at hs
      cases hs

/-- A short URL is stored under a new id if its row can be written, with surrogates joined. There is
no cache entry for it yet. -/
theorem leaves_insertion (hb : b.Coherent) (hid : id ∉ Keyed.keys b.table) (s : ShortUrl)
    (seconds : Int) (hencodable : Connection.isEncodable s = true) :
    ((insertion id s seconds).play b).1 = .ok () ∧
      Keyed.get? ((insertion id s seconds).leaves b).table id = some s.joinPairs ∧
      ((insertion id s seconds).leaves b).cached? id = none := by
  obtain ⟨c', hplay, htable, hcached⟩ := (execute_insertion hid s seconds).1 hencodable
  unfold Turn.leaves
  rw [hplay, htable, hcached, Keyed.get?_append, (Keyed.get?_eq_none_iff _ _).mpr hid]
  exact ⟨rfl, by simp [Keyed.get?], hb.cached?_eq_none hid⟩

/-- What the first two look-ups find decides: the row is what was stored, and its text is read as it
was. -/
theorem survives_of_found {b₀ : Backend} {row : ShortUrl} {l : Look} (hl : cacheKey id ∉ l.expired)
    (hrow : Keyed.get? b₀.table id = some row) (hnone : b₀.cached? id = none)
    (hfirst : ((l.turn id).play b₀).1 = .ok (some s))
    (hsecond : ((l.turn id).play ((l.turn id).leaves b₀)).1 = .ok (some s)) :
    ∃ text, s.written = .ok text ∧ ShortUrl.ofStored (ofText text) = .ok s := by
  -- the first look-up can only fill the cache with a row that has a text, and the second reads it
  cases hw : row.written with
  | error e =>
    have hsession : ((l.turn id).session b₀).backend.cached? id = none := by
      rw [Look.cached?_session, if_neg hl, hnone]
    rw [Look.play_turn, Connection.execute_lookup_unwritable rfl l.seconds hsession hrow hw] at hfirst
    cases hfirst
  | ok text =>
    have hserves : b₀.Serves id row text := ⟨hrow, .inl hnone⟩
    obtain ⟨hserves', hfilled⟩ := Look.serves_leaves hw hserves l
    rcases Look.play_serves hw hserves l with ⟨-, hfound, -⟩ | ⟨⟨hsome, -⟩, -⟩
    swap
    · rw [hnone] at hsome
      cases hsome
    obtain rfl : row = s := Option.some.inj (Except.ok.inj (hfound.symm.trans hfirst))
    refine ⟨text, hw, ?_⟩
    rcases Look.play_serves hw hserves' l with ⟨hor, -⟩ | ⟨-, hentry, -⟩
    · rw [hfilled] at hor
      exact absurd (hor.resolve_left (by simp)) hl
    · rw [hentry] at hsecond
      unfold Seeking.ofEntry at hsecond
      cases hread : ShortUrl.ofStored (ofText text) with
      | ok u =>
        rw [hread] at hsecond
        cases hsecond
        rfl
      | error refusal =>
        rw [hread] at hsecond
        cases hsecond

section

variable (hb : b.Coherent) (hid : id ∉ Keyed.keys b.table)
include hb hid

/-- A short URL that holds texts only and does not nest too deep is stored as it is. What is written
for it to the cache has lost its numbers that are not finite. -/
theorem serves_insertion (hs : s.Receivable) (htext : s.toJson.All Json.HasText)
    (hnesting : s.toJson.depth ≤ Json.Dialect.stored.nesting) (seconds : Int) :
    ((insertion id s seconds).play b).1 = .ok () ∧
      ((insertion id s seconds).leaves b).cached? id = none ∧
      ∃ text, s.written = .ok text ∧ Seeking.ofEntry text = .ok (some s.nullNonFinite) ∧
        ((insertion id s seconds).leaves b).Serves id s text := by
  have hstored := hs.stored htext hnesting
  obtain ⟨text, hw⟩ := ShortUrl.exists_written hstored
  obtain ⟨hinserted, hrow, hnone⟩ := leaves_insertion hb hid s seconds
    (ShortUrl.isEncodable_of_text htext)
  rw [ShortUrl.joinPairs_eq_self hs htext] at hrow
  have hentry : Seeking.ofEntry text = .ok (some s.nullNonFinite) := by
    unfold Seeking.ofEntry
    rw [ShortUrl.ofStored_written hstored hw]
  exact ⟨hinserted, hnone, text, hw, hentry, hrow, .inl hnone⟩

/-- The first look-up finds such a short URL as it was stored. -/
theorem found_first (hs : s.Receivable) (htext : s.toJson.All Json.HasText)
    (hnesting : s.toJson.depth ≤ Json.Dialect.stored.nesting) (seconds : Int) (l : Look) :
    ((l.turn id).play ((insertion id s seconds).leaves b)).1 = .ok (some s) ∧
      ((l.turn id).play ((insertion id s seconds).leaves b)).2.IsFromRow id := by
  obtain ⟨-, hnone, text, hw, -, hserves⟩ := serves_insertion hb hid hs htext hnesting seconds
  rcases Look.play_serves hw hserves l with ⟨-, hfound⟩ | ⟨⟨hsome, -⟩, -⟩
  · exact hfound
  · rw [hnone] at hsome
    cases hsome

/-- Later look-ups find it without its numbers that are not finite, in its cache entry. -/
theorem found_later (hs : s.Receivable) (htext : s.toJson.All Json.HasText)
    (hnesting : s.toJson.depth ≤ Json.Dialect.stored.nesting) (seconds : Int)
    {earlier : List Look} (hearlier : earlier ≠ []) {l : Look} (hl : cacheKey id ∉ l.expired) :
    let b' := afterTurns (earlier.map (Look.turn id)) ((insertion id s seconds).leaves b)
    ((l.turn id).play b').1 = .ok (some s.nullNonFinite) ∧ ((l.turn id).play b').2.IsFromEntry id := by
  obtain ⟨-, -, text, hw, hentry, hserves⟩ := serves_insertion hb hid hs htext hnesting seconds
  obtain ⟨hlater, hfilled⟩ := Look.serves_afterTurns hw hserves earlier
  rcases Look.play_serves hw hlater l with ⟨hor, -⟩ | ⟨-, hfound, hfrom⟩
  · rw [hfilled hearlier] at hor
    rcases hor with h | h
    · cases h
    · exact absurd h hl
  · exact ⟨hfound.trans hentry, hfrom⟩

/-- A portable short URL has no numbers to lose, so all look-ups agree. -/
theorem recalls_of_isPortable (hs : s.Receivable) (hportable : s.IsPortable)
    (seconds : Int) :
    ((insertion id s seconds).play b).1 = .ok () ∧
      ((insertion id s seconds).leaves b).Recalls id s := by
  obtain ⟨htext, hfinite, hnesting⟩ := hportable
  have hsame : s.nullNonFinite = s :=
    (ShortUrl.nullNonFinite_eq_self_iff hs.user hs.image).mpr hfinite
  obtain ⟨hinserted, -, text, hw, hentry, hserves⟩ :=
    serves_insertion hb hid hs htext hnesting seconds
  refine ⟨hinserted, fun earlier l => ?_, fun l => (found_first hb hid hs htext hnesting seconds l).2,
    fun earlier l hearlier hl => (found_later hb hid hs htext hnesting seconds hearlier hl).2⟩
  obtain ⟨hlater, -⟩ := Look.serves_afterTurns hw hserves earlier
  rcases Look.play_serves hw hlater l with ⟨-, hfound, -⟩ | ⟨-, hfound, -⟩
  · exact hfound
  · rw [hsame] at hentry
    exact hfound.trans hentry

/-- If all look-ups agree, then so do the first two. -/
theorem isPortable_of_recalls (hs : s.Receivable) (seconds : Int)
    (h : ((insertion id s seconds).play b).1 = .ok () ∧
      ((insertion id s seconds).leaves b).Recalls id s) : s.IsPortable := by
  obtain ⟨hinserted, hrecalls⟩ := h
  have hencodable : Connection.isEncodable s = true := by
    by_contra hnot
    exact (execute_insertion hid s seconds).2 hnot hinserted
  obtain ⟨-, hrow, hnone⟩ := leaves_insertion hb hid s seconds hencodable
  let l : Look := ⟨seconds, []⟩
  exact (ShortUrl.survives_iff hs).mp (survives_of_found (l := l) List.not_mem_nil hrow hnone
    (hrecalls.found [] l) (hrecalls.found [l] l))

/-- **Agreement of look-ups.** A short URL read from the body of a request and stored beside a
cache, while nothing fails, is found as it was by all look-ups (`Recalls`) exactly if it
`IsPortable`. -/
theorem recalls_iff_isPortable {body : Bytes} {room : Nat} {j : Json}
    (hbody : Json.readDocument (.received room) body = .ok j) (hs : ShortUrl.ofJson j = .ok s)
    (seconds : Int) :
    ((insertion id s seconds).play b).1 = .ok () ∧
        ((insertion id s seconds).leaves b).Recalls id s ↔ s.IsPortable := by
  have hreceivable := ShortUrl.receivable_of_ofJson (Json.takes_of_readDocument hbody) hs
  exact ⟨isPortable_of_recalls hb hid hreceivable seconds,
    fun hportable => recalls_of_isPortable hb hid hreceivable hportable seconds⟩

end

/-- A body in which lists, objects and numbers nest. -/
def nestedBody : Bytes := Utf8.encode
  ("\x7b\"user\":\"u\",\"imageIdentifier\":\"i\"," ++
    "\"query\":\x7b\"a\":[1,-0.5,\x7b\"b\":\"x\"\x7d]\x7d\x7d").toList

/-- What such a body describes survives. -/
theorem recalls_iff_isPortable_nested : ∃ j s,
    Json.readDocument (.received 970) nestedBody = .ok j ∧ ShortUrl.ofJson j = .ok s ∧
      Backend.empty.Coherent ∧ "a".toList ∉ Keyed.keys Backend.empty.table ∧
      ((insertion "a".toList s 60).play .empty).1 = .ok () ∧
      ((insertion "a".toList s 60).leaves .empty).Recalls "a".toList s := by
  have hread : (Json.readDocument (.received 970) nestedBody).toOption.any (fun j =>
      (ShortUrl.ofJson j).toOption.any fun s => decide s.IsPortable) = true := by decide +kernel
  obtain ⟨j, hj, hread⟩ := Except.exists_ok_of_any hread
  obtain ⟨s, hs, hportable⟩ := Except.exists_ok_of_any hread
  have hfresh : "a".toList ∉ Keyed.keys Backend.empty.table := List.not_mem_nil
  exact ⟨j, s, hj, hs, Backend.coherent_empty, hfresh,
    (recalls_iff_isPortable Backend.coherent_empty hfresh hj hs 60).mpr
      (of_decide_eq_true hportable)⟩

/-- A body with a number that is not finite. -/
def nonFiniteBody : Bytes := Utf8.encode
  ("\x7b\"user\":\"u\",\"imageIdentifier\":\"i\",\"query\":\x7b\"a\":NaN\x7d\x7d").toList

/-- The second look-up does not find what the first one found. -/
theorem second_look_up_differs : ∃ j s,
    Json.readDocument (.received 970) nonFiniteBody = .ok j ∧ ShortUrl.ofJson j = .ok s ∧
      ((insertion "a".toList s 60).play .empty).1 = .ok () ∧
      ((Look.turn "a".toList ⟨60, []⟩).play ((insertion "a".toList s 60).leaves .empty)).1 =
        .ok (some s) ∧
      ((Look.turn "a".toList ⟨60, []⟩).play
        (afterTurns [Look.turn "a".toList ⟨60, []⟩]
          ((insertion "a".toList s 60).leaves .empty))).1 = .ok (some s.nullNonFinite) ∧
      s.nullNonFinite ≠ s := by
  have hread : (Json.readDocument (.received 970) nonFiniteBody).toOption.any (fun j =>
      (ShortUrl.ofJson j).toOption.any fun s => decide (s.toJson.All Json.HasText ∧
        s.toJson.depth ≤ Json.Dialect.stored.nesting ∧ ¬s.toJson.All Json.IsFinite)) = true := by
    decide +kernel
  obtain ⟨j, hj, hread⟩ := Except.exists_ok_of_any hread
  obtain ⟨s, hs, hread⟩ := Except.exists_ok_of_any hread
  obtain ⟨htext, hnesting, hlost⟩ := of_decide_eq_true hread
  have hreceivable := ShortUrl.receivable_of_ofJson (Json.takes_of_readDocument hj) hs
  have hfresh : "a".toList ∉ Keyed.keys Backend.empty.table := List.not_mem_nil
  refine ⟨j, s, hj, hs, ?_, ?_, ?_, ?_⟩
  · exact (serves_insertion Backend.coherent_empty hfresh hreceivable htext hnesting 60).1
  · exact (found_first Backend.coherent_empty hfresh hreceivable htext hnesting 60 ⟨60, []⟩).1
  · have hlater := found_later Backend.coherent_empty hfresh hreceivable htext hnesting 60
      (List.cons_ne_nil (⟨60, []⟩ : Look) []) (l := ⟨60, []⟩) List.not_mem_nil
    exact hlater.1
  · exact mt (ShortUrl.nullNonFinite_eq_self_iff hreceivable.user hreceivable.image).mp hlost

end AliasGate.Storage
