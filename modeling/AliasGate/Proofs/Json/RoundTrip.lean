import AliasGate.Proofs.Json.Reading
import AliasGate.Proofs.Json.Writing

/-!
# Written values are read back

A value that a dialect gives is read back from its text, except that numbers that are not finite
have become `null`.

* `Dialect.Reads d f`: the texts of the format suit the dialect.
* `value_arr`, `value_obj`, `elements_*`, `members_*`: one step of the reader each.
* `value_write`: a value in front of whatever may follow it; `read_write`: a value alone.
-/

namespace AliasGate.Json

open WideText (ofText)

/-- Numbers are written with no more digits than the dialect takes before a point, and those that
are not finite as `null`, if at all. -/
structure Dialect.Reads (d : Dialect) (f : Format) : Prop where
  fits : d.Fits f.layout
  nonFinite : ∀ t ∈ f.nonFinite, t = "null".toList

variable {d : Dialect} {f : Format} {fuel level : Nat} {s r rest : WideText}

/-! ## Beginnings -/

/-- No scalar begins with white space or punctuation. -/
theorem scalar?_eq_none {c : Char}
    (hc : c ∈ ['"', '[', '{', ']', '}', ',', ' ', '\t', '\n', '\r']) :
    scalar? d (.char c :: s) = none := by
  simp only [List.mem_cons, List.not_mem_nil, or_false] at hc
  rcases hc with rfl | rfl | rfl | rfl | rfl | rfl | rfl | rfl | rfl | rfl <;>
    simp [scalar?, named?, Text.after?, ofText, number?, wholePart?, digits, digit?,
      Text.isAsciiDigit]

theorem scalar?_nil : scalar? d [] = none := by
  simp [scalar?, named?, Text.after?, ofText]

/-- The text begins with a token other than a closing bracket. -/
def Begins (s : WideText) : Prop :=
  ∀ c ∈ s.head?, isSpace c = false ∧ c ≠ .char ']' ∧ c ≠ .char '}'

theorem Begins.skipSpace (h : Begins s) : Json.skipSpace s = s := by
  cases s with
  | nil => rfl
  | cons c s => exact List.dropWhile_cons_of_neg (by simp [(h c rfl).1])

theorem begins_of_scalar? {x : Json × WideText} (h : scalar? d s = some x) : Begins s := by
  rintro c hc
  obtain ⟨t, rfl⟩ : ∃ t, s = c :: t := List.head?_eq_some_iff.mp hc
  refine ⟨?_, ?_, ?_⟩
  · by_contra hspace
    simp only [isSpace, Bool.not_eq_false, Bool.or_eq_true, beq_iff_eq] at hspace
    rcases hspace with ((rfl | rfl) | rfl) | rfl <;>
      rw [scalar?_eq_none (by decide)] at h <;> cases h
  · rintro rfl
    rw [scalar?_eq_none (by decide)] at h
    cases h
  · rintro rfl
    rw [scalar?_eq_none (by decide)] at h
    cases h

theorem begins_of_value {x : Json × WideText} (h : value d fuel level s = .ok x) : Begins s := by
  cases fuel with
  | zero => cases h
  | succ fuel =>
    have hmark : ∀ k ∈ ['"', '[', '{'], ∀ t, Begins (.char k :: t) := by
      intro k hk t c hc
      obtain rfl := Option.some.inj hc
      simp only [List.mem_cons, List.not_mem_nil, or_false] at hk
      rcases hk with rfl | rfl | rfl <;> decide
    unfold value at h
    split at h
    · exact hmark _ (by simp) _
    · exact hmark _ (by simp) _
    · exact hmark _ (by simp) _
    · obtain ⟨j, r⟩ := x
      exact begins_of_scalar? (Reading.ofToken_eq_ok.mp h)

theorem begins_of_elements {x : List Json × WideText} (h : elements d fuel level s = .ok x) :
    Begins s := by
  obtain ⟨fuel', j, t, js, -, hj, -⟩ := elements_cases h
  exact begins_of_value hj

theorem begins_writeString (k t : WideText) : Begins (writeString k ++ t) := by
  intro c hc
  obtain rfl := Option.some.inj hc
  decide

/-! ## Steps of the reader -/

/-- A scalar in front of what may follow a value. -/
theorem value_scalar {j : Json} (hfuel : 2 * s.length ≤ fuel + 1) (hrest : Closes rest)
    (h : scalar? d (s ++ rest) = some (j, rest)) :
    value d fuel level (s ++ rest) = .ok (j, rest) := by
  -- what may follow a value is no scalar, so the scalar has a text, and that text pays for the step
  have hne : s ≠ [] := by
    rintro rfl
    rcases rest with _ | ⟨c, r⟩
    · rw [List.nil_append, scalar?_nil] at h
      cases h
    · rcases hrest c rfl with rfl | rfl | rfl <;>
        rw [List.nil_append, scalar?_eq_none (by decide)] at h <;> cases h
  obtain ⟨fuel, rfl⟩ : ∃ n, fuel = n + 1 := ⟨fuel - 1, by
    have := List.length_pos_iff.mpr hne
    omega⟩
  unfold value
  -- a scalar begins with neither a quote nor a bracket
  split
  · next hs => rw [hs, scalar?_eq_none (by decide)] at h; cases h
  · next hs => rw [hs, scalar?_eq_none (by decide)] at h; cases h
  · next hs => rw [hs, scalar?_eq_none (by decide)] at h; cases h
  · rw [h]
    rfl

theorem writeString_append (k t : WideText) :
    writeString k ++ t = .char '"' :: (k.flatMap escape ++ .char '"' :: t) := by
  simp [writeString]

theorem value_str {k : WideText} (hk : d.Allows k) :
    value d (fuel + 1) level (writeString k ++ rest) = .ok (.str k, rest) := by
  unfold value
  rw [writeString_append]
  simp only [string?_writeString hk]
  rfl

theorem value_arr_nil (henters : d.enters level true = true) :
    value d (fuel + 1) level (.char '[' :: .char ']' :: r) = .ok (.arr [], r) := if_pos henters

theorem value_arr {js : List Json} (henters : d.enters level false = true)
    (h : elements d fuel (level + 1) s = .ok (js, r)) :
    value d (fuel + 1) level (.char '[' :: s) = .ok (.arr js, r) := by
  have hbegins := begins_of_elements h
  unfold value
  simp only [hbegins.skipSpace]
  split
  · exact absurd rfl (hbegins _ rfl).2.1
  · rw [if_pos henters, h]
    rfl

theorem value_obj_nil (henters : d.enters level true = true) :
    value d (fuel + 1) level (.char '{' :: .char '}' :: r) = .ok (.obj [], r) := if_pos henters

theorem value_obj {ms : List (WideText × Json)} (henters : d.enters level false = true)
    (hs : Begins s) (h : members d fuel (level + 1) s = .ok (ms, r)) :
    value d (fuel + 1) level (.char '{' :: s) = .ok (.obj (Keyed.ofPairs ms), r) := by
  unfold value
  simp only [hs.skipSpace]
  split
  · exact absurd rfl (hs _ rfl).2.2
  · rw [if_pos henters, h]
    rfl

theorem elements_last {j : Json} (h : value d fuel level s = .ok (j, .char ']' :: r)) :
    elements d (fuel + 1) level s = .ok ([j], r) := by
  unfold elements
  rw [h]
  rfl

theorem elements_more {j : Json} {js : List Json} {t : WideText}
    (h : value d fuel level s = .ok (j, .char ',' :: t))
    (hmore : elements d fuel level t = .ok (js, r)) :
    elements d (fuel + 1) level s = .ok (j :: js, r) := by
  have hskip := (begins_of_elements hmore).skipSpace
  unfold elements
  rw [h]
  show (elements d fuel level (skipSpace t)).map (j :: ·) = _
  rw [hskip, hmore]
  rfl

theorem members_last {k : WideText} {j : Json} (hk : d.Allows k)
    (h : value d fuel level s = .ok (j, .char '}' :: r)) :
    members d (fuel + 1) level (writeString k ++ .char ':' :: s) = .ok ([(k, j)], r) := by
  have hcolon : skipSpace (.char ':' :: s) = .char ':' :: s := rfl
  rw [writeString_append]
  unfold members
  simp only [string?_writeString hk, hcolon, (begins_of_value h).skipSpace, h]
  rfl

theorem members_more {k : WideText} {j : Json} {ms : List (WideText × Json)} {t : WideText}
    (hk : d.Allows k) (h : value d fuel level s = .ok (j, .char ',' :: t)) (ht : Begins t)
    (hmore : members d fuel level t = .ok (ms, r)) :
    members d (fuel + 1) level (writeString k ++ .char ':' :: s) = .ok ((k, j) :: ms, r) := by
  have hcolon : skipSpace (.char ':' :: s) = .char ':' :: s := rfl
  rw [writeString_append]
  unfold members
  simp only [string?_writeString hk, hcolon, (begins_of_value h).skipSpace, h]
  show (members d fuel level (skipSpace t)).map ((k, j) :: ·) = _
  rw [ht.skipSpace, hmore]
  rfl

/-! ## Values -/

/-- The value is read back from its text, wherever it may stand. -/
def ReadBack (d : Dialect) (f : Format) (j : Json) : Prop :=
  ∀ ⦃level fuel : Nat⦄ ⦃s rest : WideText⦄, d.Takes level j → writeWide f j = some s →
    2 * s.length ≤ fuel + 1 → Closes rest →
    value d fuel level (s ++ rest) = .ok (j.nullNonFinite, rest)

variable {j : Json} {js : List Json} {ms : List (WideText × Json)}

theorem closes_nil : Closes [] := fun _ hc => nomatch hc

theorem closes_cons {c : Char} (hc : c ∈ [',', ']', '}']) : Closes (.char c :: rest) := by
  intro p hp
  obtain rfl := Option.some.inj hp
  simpa using hc

/-- What is read back has a text that is not empty. -/
theorem ReadBack.text_ne_nil (h : ReadBack d f j) (htaken : d.Takes level j)
    (hs : writeWide f j = some s) : s ≠ [] := by
  rintro rfl
  have hread : value d 0 level ([] ++ []) = .ok (j.nullNonFinite, []) :=
    h htaken hs (by simp) closes_nil
  cases hread

theorem elements_write (ih : ∀ j ∈ js, ReadBack d f j) (hne : js ≠ [])
    (htaken : ∀ j ∈ js, d.Takes level j) (hs : writeElements f js = some s)
    (hfuel : 2 * s.length ≤ fuel) :
    elements d fuel level (s ++ .char ']' :: rest) = .ok (nullNonFiniteElements js, rest) := by
  -- by the elements: each step takes one unit of fuel, and the comma before the next element has two
  induction js generalizing s fuel with
  | nil => exact absurd rfl hne
  | cons j js ihjs =>
    have hj := ih j List.mem_cons_self
    have htakenj := htaken j List.mem_cons_self
    rw [writeElements] at hs
    split at hs
    swap
    · cases hs
    next t u ht hu =>
    have htext := List.length_pos_iff.mpr (hj.text_ne_nil htakenj ht)
    cases js with
    | nil =>
      obtain rfl : t = s := Option.some.inj hs
      obtain ⟨fuel, rfl⟩ : ∃ n, fuel = n + 1 := ⟨fuel - 1, by omega⟩
      exact elements_last (hj htakenj ht hfuel (closes_cons (by simp)))
    | cons j' js =>
      obtain rfl : t ++ .char ',' :: u = s := Option.some.inj hs
      simp only [List.length_append, List.length_cons] at hfuel
      obtain ⟨fuel, rfl⟩ : ∃ n, fuel = n + 1 := ⟨fuel - 1, by omega⟩
      have hroom : 2 * u.length ≤ fuel := by omega
      have hmore := ihjs (fun x hx => ih x (List.mem_cons_of_mem j hx)) (List.cons_ne_nil j' js)
        (fun x hx => htaken x (List.mem_cons_of_mem j hx)) hu hroom
      rw [List.append_assoc, List.cons_append]
      exact elements_more (hj htakenj ht (by omega) (closes_cons (by simp))) hmore

theorem members_write (ih : ∀ m ∈ ms, ReadBack d f m.2) (hne : ms ≠ [])
    (htaken : ∀ m ∈ ms, d.Allows m.1 ∧ d.Takes level m.2) (hs : writeMembers f ms = some s)
    (hfuel : 2 * s.length ≤ fuel) :
    Begins (s ++ .char '}' :: rest) ∧
      members d fuel level (s ++ .char '}' :: rest) = .ok (nullNonFiniteMembers ms, rest) := by
  induction ms generalizing s fuel with
  | nil => exact absurd rfl hne
  | cons m ms ihms =>
    obtain ⟨k, j⟩ := m
    have hj : ReadBack d f j := ih (k, j) List.mem_cons_self
    obtain ⟨hk, htakenj⟩ : d.Allows k ∧ d.Takes level j := htaken (k, j) List.mem_cons_self
    rw [writeMembers] at hs
    split at hs
    swap
    · cases hs
    next t u ht hu =>
    cases ms with
    | nil =>
      obtain rfl : writeString k ++ .char ':' :: t = s := Option.some.inj hs
      simp only [List.length_append, List.length_cons] at hfuel
      obtain ⟨fuel, rfl⟩ : ∃ n, fuel = n + 1 := ⟨fuel - 1, by omega⟩
      rw [List.append_assoc, List.cons_append]
      exact ⟨begins_writeString k _,
        members_last hk (hj htakenj ht (by omega) (closes_cons (by simp)))⟩
    | cons m' ms =>
      obtain rfl : writeString k ++ .char ':' :: (t ++ .char ',' :: u) = s := Option.some.inj hs
      simp only [List.length_append, List.length_cons] at hfuel
      obtain ⟨fuel, rfl⟩ : ∃ n, fuel = n + 1 := ⟨fuel - 1, by omega⟩
      have hroom : 2 * u.length ≤ fuel := by omega
      obtain ⟨hbegins, hmore⟩ := ihms (fun x hx => ih x (List.mem_cons_of_mem _ hx))
        (List.cons_ne_nil m' ms) (fun x hx => htaken x (List.mem_cons_of_mem _ hx)) hu hroom
      rw [List.append_assoc, List.cons_append, List.append_assoc, List.cons_append]
      exact ⟨begins_writeString k _,
        members_more hk (hj htakenj ht (by omega) (closes_cons (by simp))) hbegins hmore⟩

/-- The value of a number that is not finite is its `null`. -/
theorem readBack_number (hdf : d.Reads f) (x : Double) : ReadBack d f (.number x) := by
  intro level fuel s rest htaken hs hfuel hrest
  refine value_scalar hfuel hrest ?_
  obtain ⟨t, ht, rfl⟩ := Option.map_eq_some_iff.mp hs
  cases x with
  | finite negative m =>
    obtain rfl : f.layout.finite negative m = t := Option.some.inj ht
    exact scalar?_finite hdf.fits m hrest
  | nan | infinite =>
    obtain rfl : t = "null".toList := hdf.nonFinite t ht
    simp [scalar?, named?, Text.after?, ofText, nullNonFinite]

theorem readBack_str (k : WideText) : ReadBack d f (.str k) := by
  intro level fuel s rest htaken hs hfuel hrest
  obtain rfl : writeString k = s := Option.some.inj hs
  have hlength : 2 ≤ (writeString k).length := by simp [writeString]
  obtain ⟨fuel, rfl⟩ : ∃ n, fuel = n + 1 := ⟨fuel - 1, by omega⟩
  exact value_str (all_str.mp htaken.parts)

/-- A list is read back if its elements are. -/
theorem readBack_arr (ih : ∀ j ∈ js, ReadBack d f j) : ReadBack d f (.arr js) := by
  intro level fuel s rest htaken hs hfuel hrest
  obtain ⟨t, ht, rfl⟩ := Option.map_eq_some_iff.mp hs
  simp only [List.length_append, List.length_cons, List.length_nil] at hfuel
  obtain ⟨fuel, rfl⟩ : ∃ n, fuel = n + 1 := ⟨fuel - 1, by omega⟩
  have hsplit : .char '[' :: t ++ [.char ']'] ++ rest =
      .char '[' :: (t ++ .char ']' :: rest) := by simp
  by_cases hne : js = []
  · subst hne
    obtain rfl : [] = t := Option.some.inj ht
    exact value_arr_nil ((Dialect.enters_empty_iff htaken.level_le).mpr htaken.arr_le)
  · have helements : elements d fuel (level + 1) (t ++ .char ']' :: rest) =
        .ok (nullNonFiniteElements js, rest) :=
      elements_write ih hne htaken.element ht (by omega)
    obtain ⟨j, hj⟩ := List.exists_mem_of_ne_nil js hne
    rw [hsplit]
    exact value_arr (Dialect.enters_iff.mpr (htaken.element j hj).level_le) helements

/-- An object is read back if the values of its members are: their names are distinct. -/
theorem readBack_obj (ih : ∀ m ∈ ms, ReadBack d f m.2) : ReadBack d f (.obj ms) := by
  intro level fuel s rest htaken hs hfuel hrest
  obtain ⟨t, ht, rfl⟩ := Option.map_eq_some_iff.mp hs
  simp only [List.length_append, List.length_cons, List.length_nil] at hfuel
  obtain ⟨fuel, rfl⟩ : ∃ n, fuel = n + 1 := ⟨fuel - 1, by omega⟩
  have hsplit : .char '{' :: t ++ [.char '}'] ++ rest =
      .char '{' :: (t ++ .char '}' :: rest) := by simp
  by_cases hne : ms = []
  · subst hne
    obtain rfl : [] = t := Option.some.inj ht
    exact value_obj_nil ((Dialect.enters_empty_iff htaken.level_le).mpr htaken.obj_le)
  · have hroom : 2 * t.length ≤ fuel := by omega
    obtain ⟨hbegins, hmembers⟩ := members_write ih hne htaken.member ht hroom
    have hnames : (Keyed.keys (nullNonFiniteMembers ms)).Nodup := by
      rw [keys_nullNonFiniteMembers]
      exact htaken.names
    obtain ⟨m, hm⟩ := List.exists_mem_of_ne_nil ms hne
    have henters := Dialect.enters_iff.mpr (htaken.member m hm).2.level_le
    rw [hsplit, value_obj henters hbegins hmembers, Keyed.ofPairs_of_nodup hnames,
      nullNonFinite]

/-- **Written values are read back**, in front of whatever may follow them. -/
theorem value_write (hdf : d.Reads f) (j : Json) : ReadBack d f j := by
  induction j using induct with
  | null =>
    intro level fuel s rest htaken hs hfuel hrest
    obtain rfl := Option.some.inj hs
    refine value_scalar hfuel hrest ?_
    simp [scalar?, named?, Text.after?, ofText, nullNonFinite]
  | bool b =>
    intro level fuel s rest htaken hs hfuel hrest
    cases b <;> obtain rfl := Option.some.inj hs <;>
      refine value_scalar hfuel hrest ?_ <;>
      simp [scalar?, named?, Text.after?, ofText, nullNonFinite]
  | int n =>
    intro level fuel s rest htaken hs hfuel hrest
    obtain rfl := Option.some.inj hs
    exact value_scalar hfuel hrest (scalar?_ofInt (all_int.mp htaken.parts) hrest)
  | number x => exact readBack_number hdf x
  | str k => exact readBack_str k
  | arr js ih => exact readBack_arr ih
  | obj ms ih => exact readBack_obj ih

/-- **Round trip.** A value that a dialect gives, written in a format that suits the dialect, is read
back with `null` for its numbers that are not finite. -/
theorem read_write (hdf : d.Reads f) (htaken : d.Takes 0 j) (hs : writeWide f j = some s) :
    read d s = .ok j.nullNonFinite := by
  have hread : value d (2 * s.length + 2) 0 (s ++ []) = .ok (j.nullNonFinite, []) :=
    value_write hdf j htaken hs (by omega) closes_nil
  rw [List.append_nil] at hread
  unfold read
  rw [(begins_of_value hread).skipSpace, hread]
  rfl

end AliasGate.Json
