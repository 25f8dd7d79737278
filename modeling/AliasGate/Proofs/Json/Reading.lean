import AliasGate.Json.Reader
import AliasGate.Proofs.Json.Numbers
import AliasGate.Proofs.Json.Parts
import AliasGate.Proofs.Json.Strings

/-!
# What a reader gives

Every value that is read keeps the limits of the dialect, at every depth.

* `Dialect.Gives d x`: `x` itself keeps them; `Dialect.Takes d level j`: so does every part of `j`,
  which nests no deeper than the level leaves room for.
* `scalar?_gives`: numbers and names; `value_takes`: one step of the reader keeps the limits if those
  before it did.
* `takes_of_read`: whole texts.
-/

namespace AliasGate.Json

namespace Dialect

/-- The dialect takes a text in a string. -/
def Allows (d : Dialect) (s : WideText) : Prop :=
  d.loneSurrogates = true ∨ WideText.isText s = true

theorem Allows.of_subset {d : Dialect} {s t : WideText} (h : d.Allows s) (hsub : t ⊆ s) :
    d.Allows t :=
  h.imp_right fun h => WideText.isText_of_subset h hsub

theorem Allows.onRuns {d : Dialect} {s : WideText} (h : d.Allows s) (f : Text → Text) :
    d.Allows (WideText.onRuns f s) := by
  refine h.imp_right fun h => ?_
  obtain ⟨t, rfl⟩ := WideText.isText_iff.mp h
  rw [WideText.onRuns_ofText]
  exact WideText.isText_ofText _

/-- A value apart from the values inside it: its digits, its text and its names are such as the
dialect gives them. -/
def Gives (d : Dialect) : Json → Prop
  | .int n => (Text.ofNat n.natAbs).length ≤ d.digits
  | .str s => d.Allows s
  | .obj ms => (Keyed.keys ms).Nodup ∧ ∀ m ∈ ms, d.Allows m.1
  | _ => True

instance (d : Dialect) (s : WideText) : Decidable (d.Allows s) :=
  inferInstanceAs (Decidable (_ ∨ _))

instance (d : Dialect) : DecidablePred d.Gives
  | .int n => inferInstanceAs (Decidable ((Text.ofNat n.natAbs).length ≤ d.digits))
  | .str s => inferInstanceAs (Decidable (d.Allows s))
  | .obj ms => inferInstanceAs (Decidable ((Keyed.keys ms).Nodup ∧ ∀ m ∈ ms, d.Allows m.1))
  | .null | .bool _ | .number _ | .arr _ => .isTrue trivial

/-- With a number of lists and objects around it, the value is one that the dialect gives. -/
structure Takes (d : Dialect) (level : Nat) (j : Json) : Prop where
  parts : j.All d.Gives
  nesting : level + j.levels d.countsEmpty ≤ d.nesting

instance (d : Dialect) (level : Nat) (j : Json) : Decidable (d.Takes level j) :=
  decidable_of_iff (j.All d.Gives ∧ level + j.levels d.countsEmpty ≤ d.nesting)
    ⟨fun h => ⟨h.1, h.2⟩, fun h => ⟨h.parts, h.nesting⟩⟩

variable {d : Dialect} {level : Nat}

theorem takes_arr {js : List Json} (hlevel : level + d.countsEmpty.toNat ≤ d.nesting)
    (h : ∀ j ∈ js, d.Takes (level + 1) j) : d.Takes level (.arr js) := by
  refine ⟨all_arr.mpr ⟨trivial, fun j hj => (h j hj).parts⟩, ?_⟩
  have hlevels : (Json.arr js).levels d.countsEmpty ≤ d.nesting - level :=
    levels_arr_le.mpr ⟨by omega, fun j hj => by
      have := (h j hj).nesting
      omega⟩
  omega

theorem takes_obj {ms : List (WideText × Json)} (hlevel : level + d.countsEmpty.toNat ≤ d.nesting)
    (hnames : (Keyed.keys ms).Nodup)
    (h : ∀ m ∈ ms, d.Allows m.1 ∧ d.Takes (level + 1) m.2) : d.Takes level (.obj ms) := by
  refine ⟨all_obj.mpr ⟨⟨hnames, fun m hm => (h m hm).1⟩, fun m hm => (h m hm).2.parts⟩, ?_⟩
  have hlevels : (Json.obj ms).levels d.countsEmpty ≤ d.nesting - level :=
    levels_obj_le.mpr ⟨by omega, fun m hm => by
      have := (h m hm).2.nesting
      omega⟩
  omega

/-- What is not empty can be entered as long as there are levels left. -/
theorem enters_iff : d.enters level false = true ↔ level < d.nesting := by simp [enters]

/-- What is empty can also be entered at the last level, unless it counts. -/
theorem enters_empty_iff (hlevel : level ≤ d.nesting) :
    d.enters level true = true ↔ level + d.countsEmpty.toNat ≤ d.nesting := by
  cases hcounts : d.countsEmpty with
  | false => simp [enters, hcounts, hlevel]
  | true =>
    rw [enters, hcounts, Bool.not_true, Bool.and_false, Bool.or_false, decide_eq_true_iff]
    exact Nat.lt_iff_add_one_le

namespace Takes

variable {js : List Json} {ms : List (WideText × Json)}

theorem element (h : d.Takes level (.arr js)) : ∀ j ∈ js, d.Takes (level + 1) j := by
  intro j hj
  have hlevels := (levels_arr_le.mp (Nat.le_refl ((Json.arr js).levels d.countsEmpty))).2 j hj
  have hnesting := h.nesting
  exact ⟨(all_arr.mp h.parts).2 j hj, by omega⟩

theorem member (h : d.Takes level (.obj ms)) :
    ∀ m ∈ ms, d.Allows m.1 ∧ d.Takes (level + 1) m.2 := by
  intro m hm
  have hlevels := (levels_obj_le.mp (Nat.le_refl ((Json.obj ms).levels d.countsEmpty))).2 m hm
  have hnesting := h.nesting
  have hparts := all_obj.mp h.parts
  exact ⟨hparts.1.2 m hm, hparts.2 m hm, by omega⟩

theorem level_le {j : Json} (h : d.Takes level j) : level ≤ d.nesting :=
  Nat.le_trans (Nat.le_add_right _ _) h.nesting

theorem arr_le (h : d.Takes level (.arr js)) : level + d.countsEmpty.toNat ≤ d.nesting :=
  Nat.le_trans (Nat.add_le_add_left (levels_arr_le.mp (Nat.le_refl _)).1 level) h.nesting

theorem obj_le (h : d.Takes level (.obj ms)) : level + d.countsEmpty.toNat ≤ d.nesting :=
  Nat.le_trans (Nat.add_le_add_left (levels_obj_le.mp (Nat.le_refl _)).1 level) h.nesting

theorem names (h : d.Takes level (.obj ms)) : (Keyed.keys ms).Nodup := (all_obj.mp h.parts).1.1

end Takes

end Dialect

variable {d : Dialect}

/-! ## Scalars -/

theorem allDigits_digits (s : WideText) : AllDigits (digits s).1 := by
  induction s with
  | nil => exact fun c hc => absurd hc List.not_mem_nil
  | cons c s ih =>
    rcases c with c | n
    · by_cases hc : Text.isAsciiDigit c = true
      · have hdigit : digit? (.char c) = some c := if_pos hc
        simp only [digits, hdigit]
        exact fun b hb => (List.mem_cons.mp hb).elim (fun h => h ▸ isAsciiDigit_iff.mp hc) (ih b)
      · have hdigit : digit? (.char c) = none := if_neg hc
        simp only [digits, hdigit]
        exact fun b hb => absurd hb List.not_mem_nil
    · exact fun b hb => absurd hb List.not_mem_nil

theorem ofDigitChars_lt {ds : Text} (hds : AllDigits ds) (n : Nat) :
    Nat.ofDigitChars 10 ds n < (n + 1) * 10 ^ ds.length := by
  induction ds generalizing n with
  | nil => simp
  | cons c ds ih =>
    have hc : c.toNat - '0'.toNat < 10 := by
      have hdigit := hds c List.mem_cons_self
      simp only [Char.isDigit, Bool.and_eq_true, decide_eq_true_eq, UInt32.le_iff_toNat_le] at hdigit
      have htop : c.toNat ≤ 57 := hdigit.2
      show c.toNat - 48 < 10
      omega
    calc Nat.ofDigitChars 10 (c :: ds) n
        = Nat.ofDigitChars 10 ds (10 * n + (c.toNat - '0'.toNat)) := Nat.ofDigitChars_cons
      _ < (10 * n + (c.toNat - '0'.toNat) + 1) * 10 ^ ds.length :=
        ih (fun b hb => hds b (List.mem_cons_of_mem c hb)) _
      _ ≤ (n + 1) * 10 * 10 ^ ds.length := Nat.mul_le_mul_right _ (by omega)
      _ = (n + 1) * 10 ^ (c :: ds).length := by rw [List.length_cons, Nat.pow_succ']; ring

/-- A number has no more digits than it is written with. -/
theorem length_ofNat_natOfDigits {ds : Text} (hds : AllDigits ds) (hne : ds ≠ []) :
    (Text.ofNat (natOfDigits ds)).length ≤ ds.length := by
  refine Double.digitCount_le (List.length_pos_iff.mpr hne) ?_
  rw [natOfDigits_eq]
  simpa using ofDigitChars_lt hds 0

theorem wholePart?_spec {s r : WideText} {whole : Text} (h : wholePart? s = some (whole, r)) :
    AllDigits whole ∧ whole ≠ [] := by
  have hdigits := allDigits_digits s
  unfold wholePart? at h
  rcases hs : digits s with ⟨_ | ⟨c, ds⟩, rest⟩
  · rw [hs] at h
    cases h
  · rw [hs] at h hdigits
    by_cases hc : c = '0'
    · simp only [if_pos hc] at h
      cases h
      exact ⟨allDigits_replicate 1, by simp⟩
    · simp only [if_neg hc] at h
      cases h
      exact ⟨hdigits, by simp⟩

theorem numberOf_gives {negative : Bool} {whole : Text} {frac : Option Text} {exp : Option Int}
    {j : Json} (hwhole : AllDigits whole ∧ whole ≠ []) (h : numberOf d negative whole frac exp = some j) :
    d.Gives j ∧ (∃ n, j = .int n) ∨ ∃ x, j = .number x := by
  unfold numberOf at h
  split at h
  · by_cases hlength : whole.length ≤ d.digits
    · rw [if_pos hlength] at h
      cases h
      refine .inl ⟨?_, _, rfl⟩
      have hdigits : (Text.ofNat (natOfDigits whole)).length ≤ d.digits :=
        Nat.le_trans (length_ofNat_natOfDigits hwhole.1 hwhole.2) hlength
      cases negative <;> simpa [Dialect.Gives] using hdigits
    · rw [if_neg hlength] at h
      cases h
  · split at h
    · cases h
    · cases h
      exact .inr ⟨_, rfl⟩

theorem number?_gives {negative : Bool} {s r : WideText} {j : Json}
    (h : number? d negative s = some (j, r)) : d.Gives j ∧ (∃ n, j = .int n) ∨ ∃ x, j = .number x := by
  unfold number? at h
  rcases hwhole : wholePart? s with _ | ⟨whole, t⟩
  · rw [hwhole] at h
    cases h
  · rw [hwhole] at h
    obtain ⟨j', hj', heq⟩ := Option.map_eq_some_iff.mp h
    cases heq
    exact numberOf_gives (wholePart?_spec hwhole) hj'

/-- Scalars keep the limits, and nothing nests in them. -/
theorem scalar?_gives {s r : WideText} {j : Json} (h : scalar? d s = some (j, r)) :
    All d.Gives j ∧ j.levels d.countsEmpty = 0 := by
  have hnamed : ∀ {name : String} {value : Json}, named? name value s = some (j, r) → j = value := by
    intro name value h
    obtain ⟨rest, -, heq⟩ := Option.map_eq_some_iff.mp h
    exact (congrArg Prod.fst heq).symm
  have hnumber : ∀ {negative : Bool} {t : WideText}, number? d negative t = some (j, r) →
      All d.Gives j ∧ j.levels d.countsEmpty = 0 := by
    intro negative t h
    rcases number?_gives h with ⟨hj, n, rfl⟩ | ⟨x, rfl⟩
    · exact ⟨all_int.mpr hj, rfl⟩
    · exact ⟨all_number.mpr trivial, rfl⟩
  simp only [scalar?, Option.orElse_eq_orElse, Option.orElse_eq_or, Option.or_eq_some_iff] at h
  rcases h with h | ⟨-, h | ⟨-, h | ⟨-, h | ⟨-, h | ⟨-, h | ⟨-, h⟩⟩⟩⟩⟩⟩
  · exact hnamed h ▸ ⟨all_null.mpr trivial, rfl⟩
  · exact hnamed h ▸ ⟨all_bool.mpr trivial, rfl⟩
  · exact hnamed h ▸ ⟨all_bool.mpr trivial, rfl⟩
  · exact hnamed h ▸ ⟨all_number.mpr trivial, rfl⟩
  · exact hnamed h ▸ ⟨all_number.mpr trivial, rfl⟩
  · exact hnamed h ▸ ⟨all_number.mpr trivial, rfl⟩
  · split at h
    · cases h
    · split at h <;> exact hnumber h

/-! ## Values -/

theorem Reading.map_eq_ok {α β : Type} {f : α → β} {x : Reading α} {b : β} {r : WideText} :
    x.map f = .ok (b, r) ↔ ∃ a, x = .ok (a, r) ∧ f a = b := by
  rcases x with e | ⟨a, r'⟩ <;> simp [Reading.map, and_comm]

theorem Reading.ofToken_eq_ok {α : Type} {x : Option (α × WideText)} {a : α} {r : WideText} :
    Reading.ofToken x = .ok (a, r) ↔ x = some (a, r) := by
  cases x <;> simp [Reading.ofToken]

/-- What was read in a list or an object was entered. -/
theorem enter_eq_ok {α : Type} {b : Bool} {x : Reading α} {c : Container} {y : α × WideText}
    (h : (if b then x else .error (.tooDeep c)) = .ok y) : b = true ∧ x = .ok y := by
  cases b with
  | true => exact ⟨rfl, h⟩
  | false => cases h

/-- How a value can have been read: a string, a list, an object or a scalar. -/
theorem value_cases {fuel level : Nat} {s r : WideText} {j : Json}
    (h : value d fuel level s = .ok (j, r)) : ∃ fuel', fuel = fuel' + 1 ∧
      ((∃ s' t, string? d s' = some (t, r) ∧ j = .str t) ∨
        d.enters level true = true ∧ (j = .arr [] ∨ j = .obj []) ∨
        d.enters level false = true ∧
          ((∃ s' js, elements d fuel' (level + 1) s' = .ok (js, r) ∧ j = .arr js) ∨
            ∃ s' ms, members d fuel' (level + 1) s' = .ok (ms, r) ∧ j = .obj (Keyed.ofPairs ms)) ∨
        scalar? d s = some (j, r)) := by
  cases fuel with
  | zero => cases h
  | succ fuel =>
    refine ⟨fuel, rfl, ?_⟩
    unfold value at h
    split at h
    · obtain ⟨t, ht, rfl⟩ := Reading.map_eq_ok.mp h
      exact .inl ⟨_, t, Reading.ofToken_eq_ok.mp ht, rfl⟩
    · split at h
      · obtain ⟨henters, h⟩ := enter_eq_ok h
        cases h
        exact .inr (.inl ⟨henters, .inl rfl⟩)
      · obtain ⟨henters, h⟩ := enter_eq_ok h
        obtain ⟨js, hjs, rfl⟩ := Reading.map_eq_ok.mp h
        exact .inr (.inr (.inl ⟨henters, .inl ⟨_, js, hjs, rfl⟩⟩))
    · split at h
      · obtain ⟨henters, h⟩ := enter_eq_ok h
        cases h
        exact .inr (.inl ⟨henters, .inr rfl⟩)
      · obtain ⟨henters, h⟩ := enter_eq_ok h
        obtain ⟨ms, hms, rfl⟩ := Reading.map_eq_ok.mp h
        exact .inr (.inr (.inl ⟨henters, .inr ⟨_, ms, hms, rfl⟩⟩))
    · exact .inr (.inr (.inr (Reading.ofToken_eq_ok.mp h)))

/-- Elements are a value, and perhaps further elements. -/
theorem elements_cases {fuel level : Nat} {s r : WideText} {js : List Json}
    (h : elements d fuel level s = .ok (js, r)) : ∃ fuel' j t js', fuel = fuel' + 1 ∧
      value d fuel' level s = .ok (j, t) ∧ js = j :: js' ∧
      (js' = [] ∨ ∃ s', elements d fuel' level s' = .ok (js', r)) := by
  cases fuel with
  | zero => cases h
  | succ fuel =>
    unfold elements at h
    rcases hvalue : value d fuel level s with e | ⟨j, t⟩
    · rw [hvalue] at h
      cases h
    · simp only [hvalue] at h
      split at h
      · obtain ⟨js', hjs', rfl⟩ := Reading.map_eq_ok.mp h
        exact ⟨fuel, j, t, js', rfl, hvalue, rfl, .inr ⟨_, hjs'⟩⟩
      · cases h
        exact ⟨fuel, j, t, [], rfl, hvalue, rfl, .inl rfl⟩
      · cases h

/-- Members are a name with a value, and perhaps further members. -/
theorem members_cases {fuel level : Nat} {s r : WideText} {ms : List (WideText × Json)}
    (h : members d fuel level s = .ok (ms, r)) : ∃ fuel' k j s' t ms', fuel = fuel' + 1 ∧
      d.Allows k ∧ value d fuel' level s' = .ok (j, t) ∧ ms = (k, j) :: ms' ∧
      (ms' = [] ∨ ∃ s', members d fuel' level s' = .ok (ms', r)) := by
  cases fuel with
  | zero => cases h
  | succ fuel =>
    unfold members at h
    split at h
    swap; · cases h
    split at h
    · cases h
    next k r hk =>
    split at h
    swap; · cases h
    split at h
    · cases h
    next j t hvalue =>
    split at h
    · obtain ⟨ms', hms', rfl⟩ := Reading.map_eq_ok.mp h
      exact ⟨fuel, k, j, _, t, ms', rfl, isText_of_string? hk, hvalue, rfl, .inr ⟨_, hms'⟩⟩
    · cases h
      exact ⟨fuel, k, j, _, t, [], rfl, isText_of_string? hk, hvalue, rfl, .inl rfl⟩
    · cases h

/-- One step of the reader: a value keeps the limits if those that are read with less fuel do. -/
theorem value_takes {fuel level : Nat} {s r : WideText} {j : Json} (hlevel : level ≤ d.nesting)
    (helements : ∀ {level s js r}, level ≤ d.nesting → elements d fuel level s = .ok (js, r) →
      ∀ j ∈ js, d.Takes level j)
    (hmembers : ∀ {level s ms r}, level ≤ d.nesting → members d fuel level s = .ok (ms, r) →
      ∀ m ∈ ms, d.Allows m.1 ∧ d.Takes level m.2)
    (h : value d (fuel + 1) level s = .ok (j, r)) : d.Takes level j := by
  obtain ⟨fuel', hfuel, hcases⟩ := value_cases h
  obtain rfl : fuel = fuel' := Nat.succ.inj hfuel
  have hempty := d.countsEmpty.toNat_le
  rcases hcases with ⟨s', t, ht, rfl⟩ | ⟨henters, rfl | rfl⟩ |
    ⟨henters, ⟨s', js, hjs, rfl⟩ | ⟨s', ms, hms, rfl⟩⟩ | hscalar
  · exact ⟨all_str.mpr (isText_of_string? ht), hlevel⟩
  · exact Dialect.takes_arr ((Dialect.enters_empty_iff hlevel).mp henters) fun j hj =>
      absurd hj List.not_mem_nil
  · exact Dialect.takes_obj ((Dialect.enters_empty_iff hlevel).mp henters) List.nodup_nil
      fun m hm => absurd hm List.not_mem_nil
  · have hroom := Dialect.enters_iff.mp henters
    exact Dialect.takes_arr (by omega) (helements hroom hjs)
  · have hroom := Dialect.enters_iff.mp henters
    obtain ⟨hnames, htaken⟩ := Keyed.ofPairs_induction (hmembers hroom hms)
    exact Dialect.takes_obj (by omega) hnames htaken
  · obtain ⟨hall, hlevels⟩ := scalar?_gives hscalar
    exact ⟨hall, hlevels ▸ hlevel⟩

/-- **What is read keeps the limits**, with any fuel. -/
theorem reader_takes (d : Dialect) (fuel : Nat) :
    (∀ {level s j r}, level ≤ d.nesting → value d fuel level s = .ok (j, r) → d.Takes level j) ∧
    (∀ {level s js r}, level ≤ d.nesting → elements d fuel level s = .ok (js, r) →
      ∀ j ∈ js, d.Takes level j) ∧
    ∀ {level s ms r}, level ≤ d.nesting → members d fuel level s = .ok (ms, r) →
      ∀ m ∈ ms, d.Allows m.1 ∧ d.Takes level m.2 := by
  -- the three productions call each other with less fuel, so they are followed together
  induction fuel with
  | zero => exact ⟨fun _ h => (nomatch h), fun _ h => (nomatch h), fun _ h => (nomatch h)⟩
  | succ fuel ih =>
    obtain ⟨hvalue, helements, hmembers⟩ := ih
    refine ⟨fun hlevel h => value_takes hlevel helements hmembers h,
      fun {level s js r} hlevel h => ?_, fun {level s ms r} hlevel h => ?_⟩
    · obtain ⟨fuel', j, t, js', hfuel, hj, rfl, hrest⟩ := elements_cases h
      obtain rfl : fuel = fuel' := Nat.succ.inj hfuel
      refine List.forall_mem_cons.mpr ⟨hvalue hlevel hj, ?_⟩
      rcases hrest with rfl | ⟨s', hs'⟩
      · exact fun j hj => absurd hj List.not_mem_nil
      · exact helements hlevel hs'
    · obtain ⟨fuel', k, j, s', t, ms', hfuel, hk, hj, rfl, hrest⟩ := members_cases h
      obtain rfl : fuel = fuel' := Nat.succ.inj hfuel
      refine List.forall_mem_cons.mpr ⟨⟨hk, hvalue hlevel hj⟩, ?_⟩
      rcases hrest with rfl | ⟨s', hs'⟩
      · exact fun m hm => absurd hm List.not_mem_nil
      · exact hmembers hlevel hs'

/-- The value of a whole text keeps the limits. -/
theorem takes_of_read {s : WideText} {j : Json} (h : read d s = .ok j) : d.Takes 0 j := by
  unfold read at h
  split at h
  · cases h
  next hvalue =>
  split at h
  · cases h
    exact (reader_takes d _).1 (Nat.zero_le _) hvalue
  · cases h

theorem takes_of_readDocument {s : Bytes} {j : Json} (h : readDocument d s = .ok j) :
    d.Takes 0 j := by
  unfold readDocument at h
  split at h
  · exact takes_of_read h
  · cases h

end AliasGate.Json
