import AliasGate.Bytes.Utf8

/-!
# Reading UTF-8

* `Utf8.decodeLossy_encode`: the reading of arbitrary bytes gives back every text that was encoded.
* `Utf8.decodeLossy_append_ascii`: an ASCII byte separates: what stands before it and after it is
  read on its own, ill-formed or not.
-/

namespace AliasGate.Utf8

variable {surrogates : Bool}

/-! ## ASCII bytes -/

theorem stepFresh_ascii {b : UInt8} (hb : b < 0x80) :
    stepFresh surrogates b = ([some b.toNat], none) := if_pos hb

/-- What is begun wants no ASCII byte next. -/
def Pending.Sound (p : Pending) : Prop := 0x80 ≤ p.low

theorem begin?_sound {b : UInt8} {p : Pending} (h : begin? surrogates b = some p) : p.Sound := by
  unfold begin? at h
  repeat' split at h
  all_goals
    cases h <;>
    · dsimp only [Pending.Sound]
      decide

theorem stepFresh_sound {b : UInt8} {p : Pending} (h : (stepFresh surrogates b).2 = some p) :
    p.Sound := by
  unfold stepFresh at h
  split at h
  · cases h
  split at h
  next q hq =>
    cases h
    exact begin?_sound hq
  next => cases h

theorem step_sound {state : Option Pending} {b : UInt8} {p : Pending}
    (h : (step surrogates state b).2 = some p) : p.Sound := by
  cases state with
  | none => exact stepFresh_sound h
  | some q =>
    simp only [step] at h
    split at h
    · split at h <;> cases h
      exact UInt8.le_refl _
    · exact stepFresh_sound h

theorem scanFrom_append_ascii {b : UInt8} (hb : b < 0x80) (x y : Bytes) {state : Option Pending}
    (hstate : ∀ p, state = some p → p.Sound) :
    scanFrom surrogates state (x ++ b :: y) =
      scanFrom surrogates state x ++ some b.toNat :: scanFrom surrogates none y := by
  induction x generalizing state with
  | nil =>
    cases state with
    | none => simp only [List.nil_append, scanFrom, step, stepFresh_ascii hb, List.cons_append]
    | some p =>
      have hlow : ¬(p.low ≤ b ∧ b ≤ p.high) := fun h =>
        absurd (UInt8.lt_of_lt_of_le hb (hstate p rfl)) (UInt8.not_lt.mpr h.1)
      simp only [List.nil_append, scanFrom, step, if_neg hlow, stepFresh_ascii hb,
        List.cons_append]
  | cons a x ih =>
    have hnext : ∀ p, (step surrogates state a).2 = some p → p.Sound := fun p hp => step_sound hp
    simp only [List.cons_append, scanFrom, ih hnext, List.append_assoc]

theorem decodeLossy_append_ascii {b : UInt8} (hb : b < 0x80) (x y : Bytes) :
    decodeLossy (x ++ b :: y) = decodeLossy x ++ Char.ofNat b.toNat :: decodeLossy y := by
  unfold decodeLossy
  rw [scanFrom_append_ascii hb x y (fun _ h => by cases h), List.map_append, List.map_cons]
  rfl

theorem decodeLossy_cons_ascii {b : UInt8} (hb : b < 0x80) (y : Bytes) :
    decodeLossy (b :: y) = Char.ofNat b.toNat :: decodeLossy y :=
  decodeLossy_append_ascii hb [] y

/-! ## Nothing is skipped -/

/-- A byte that completes nothing begins or continues something. -/
theorem step_pending {state : Option Pending} {b : UInt8} (h : (step surrogates state b).1 = []) :
    (step surrogates state b).2 ≠ none := by
  revert h
  unfold step stepFresh
  repeat' split
  all_goals simp

theorem scanFrom_eq_nil {state : Option Pending} {s : Bytes} (h : scanFrom surrogates state s = []) :
    state = none ∧ s = [] := by
  induction s generalizing state with
  | nil =>
    cases state with
    | none => exact ⟨rfl, rfl⟩
    | some p => cases h
  | cons b s ih =>
    simp only [scanFrom, List.append_eq_nil_iff] at h
    exact absurd (ih h.2).1 (step_pending h.1)

theorem decodeLossy_eq_nil {s : Bytes} (h : decodeLossy s = []) : s = [] :=
  (scanFrom_eq_nil (List.map_eq_nil_iff.mp h)).2

/-! ## Encoded characters -/

theorem begin?_ofNat {n : Nat} (hn : n < 256) :
    begin? surrogates (UInt8.ofNat n) =
      if n < 0xC2 then none
      else if n < 0xE0 then some ⟨1, 0x80, 0xBF, n - 0xC0⟩
      else if n = 0xE0 then some ⟨2, 0xA0, 0xBF, 0⟩
      else if n = 0xED then some ⟨2, 0x80, if surrogates then 0xBF else 0x9F, 0xD⟩
      else if n < 0xF0 then some ⟨2, 0x80, 0xBF, n - 0xE0⟩
      else if n = 0xF0 then some ⟨3, 0x90, 0xBF, 0⟩
      else if n < 0xF4 then some ⟨3, 0x80, 0xBF, n - 0xF0⟩
      else if n = 0xF4 then some ⟨3, 0x80, 0x8F, 4⟩
      else none := by
  have hnat : (UInt8.ofNat n).toNat = n := UInt8.toNat_ofNat_of_lt hn
  simp only [begin?, UInt8.lt_iff_toNat_lt, ← UInt8.toNat_inj, hnat]
  rfl

theorem scanFrom_lead {n : Nat} {p : Pending} (hn : n < 256) (hlow : 0x80 ≤ n)
    (h : begin? surrogates (UInt8.ofNat n) = some p) (s : Bytes) :
    scanFrom surrogates none (UInt8.ofNat n :: s) = scanFrom surrogates (some p) s := by
  have hnat : (UInt8.ofNat n).toNat = n := UInt8.toNat_ofNat_of_lt hn
  have hnot : ¬UInt8.ofNat n < 0x80 := by
    rw [UInt8.lt_iff_toNat_lt, hnat]
    exact Nat.not_lt.mpr hlow
  simp only [scanFrom, step, stepFresh, if_neg hnot, h, List.nil_append]

section
variable {low high : UInt8} {n : Nat} (hn : n < 256) (hlow : low.toNat ≤ n) (hhigh : n ≤ high.toNat)
include hn hlow hhigh

/-- A byte in the range that is owed carries six bits. -/
theorem step_next (owed value : Nat) :
    step surrogates (some ⟨owed, low, high, value⟩) (UInt8.ofNat n) =
      if owed ≤ 1 then ([some (value * 64 + (n - 0x80))], none)
      else ([], some ⟨owed - 1, 0x80, 0xBF, value * 64 + (n - 0x80)⟩) := by
  have hnat : (UInt8.ofNat n).toNat = n := UInt8.toNat_ofNat_of_lt hn
  have hrange : low ≤ UInt8.ofNat n ∧ UInt8.ofNat n ≤ high := by
    rw [UInt8.le_iff_toNat_le, UInt8.le_iff_toNat_le, hnat]
    exact ⟨hlow, hhigh⟩
  simp only [step, if_pos hrange, hnat]

theorem scanFrom_last {value v : Nat} (hv : value * 64 + (n - 0x80) = v) (s : Bytes) :
    scanFrom surrogates (some ⟨1, low, high, value⟩) (UInt8.ofNat n :: s) =
      some v :: scanFrom surrogates none s := by
  rw [scanFrom, step_next hn hlow hhigh, if_pos (Nat.le_refl 1), hv]
  rfl

theorem scanFrom_next {owed value v : Nat} (hv : value * 64 + (n - 0x80) = v) (s : Bytes) :
    scanFrom surrogates (some ⟨owed + 2, low, high, value⟩) (UInt8.ofNat n :: s) =
      scanFrom surrogates (some ⟨owed + 1, 0x80, 0xBF, v⟩) s := by
  rw [scanFrom, step_next hn hlow hhigh, if_neg (by omega), hv]
  rfl

end

/-- The first of two bytes. -/
theorem begin?_two {v : Nat} (hlow : 0x80 ≤ v) (hhigh : v < 0x800) :
    begin? surrogates (UInt8.ofNat (v / 64 % 32 + 0xC0)) = some ⟨1, 0x80, 0xBF, v / 64⟩ := by
  have hvalue : v / 64 % 32 + 0xC0 - 0xC0 = v / 64 := by omega
  rw [begin?_ofNat (by omega), if_neg (by omega), if_pos (by omega), hvalue]

/-- The first of three bytes. It bounds the second, so that the number is no surrogate and could
not have been shorter. -/
theorem begin?_three {v : Nat} (hlow : 0x800 ≤ v) (hhigh : v < 0x10000)
    (hscalar : v < 0xD800 ∨ 0xDFFF < v) :
    ∃ low high, begin? surrogates (UInt8.ofNat (v / 4096 % 16 + 0xE0)) =
        some ⟨2, low, high, v / 4096⟩ ∧
      low.toNat ≤ v / 64 % 64 + 0x80 ∧ v / 64 % 64 + 0x80 ≤ high.toNat := by
  rw [begin?_ofNat (by omega), if_neg (by omega), if_neg (by omega)]
  by_cases h0 : v / 4096 = 0
  · rw [if_pos (by omega), h0]
    refine ⟨_, _, rfl, ?_, ?_⟩
    · simp
      omega
    · simp
      omega
  rw [if_neg (by omega)]
  by_cases hd : v / 4096 = 0xD
  · rw [if_pos (by omega), hd]
    refine ⟨_, _, rfl, ?_, ?_⟩
    · simp
    · cases surrogates <;> simp <;> omega
  have hvalue : v / 4096 % 16 + 0xE0 - 0xE0 = v / 4096 := by omega
  rw [if_neg (by omega), if_pos (by omega), hvalue]
  refine ⟨_, _, rfl, ?_, ?_⟩
  · simp
  · simp
    omega

/-- The first of four bytes. It bounds the second, so that the number is that of a character and
could not have been shorter. -/
theorem begin?_four {v : Nat} (hlow : 0x10000 ≤ v) (hhigh : v < 0x110000) :
    ∃ low high, begin? surrogates (UInt8.ofNat (v / 262144 % 8 + 0xF0)) =
        some ⟨3, low, high, v / 262144⟩ ∧
      low.toNat ≤ v / 4096 % 64 + 0x80 ∧ v / 4096 % 64 + 0x80 ≤ high.toNat := by
  rw [begin?_ofNat (by omega), if_neg (by omega), if_neg (by omega), if_neg (by omega),
    if_neg (by omega), if_neg (by omega)]
  by_cases h0 : v / 262144 = 0
  · rw [if_pos (by omega), h0]
    refine ⟨_, _, rfl, ?_, ?_⟩
    · simp
      omega
    · simp
      omega
  rw [if_neg (by omega)]
  by_cases h4 : v / 262144 = 4
  · rw [if_neg (by omega), if_pos (by omega), h4]
    refine ⟨_, _, rfl, ?_, ?_⟩
    · simp
    · simp
      omega
  have hvalue : v / 262144 % 8 + 0xF0 - 0xF0 = v / 262144 := by omega
  rw [if_pos (by omega), hvalue]
  refine ⟨_, _, rfl, ?_, ?_⟩
  · simp
  · simp
    omega

/-- The reading of a character's bytes gives its number. -/
theorem scanFrom_encodeChar (c : Char) (rest : Bytes) :
    scanFrom surrogates none (String.utf8EncodeChar c ++ rest) =
      some c.toNat :: scanFrom surrogates none rest := by
  have hvalid : c.toNat < 0xD800 ∨ 0xDFFF < c.toNat ∧ c.toNat < 0x110000 := c.valid
  have hnat : c.val.toNat = c.toNat := rfl
  generalize c.toNat = v at hvalid hnat
  have hlow : ∀ n : Nat, (0x80 : UInt8).toNat ≤ n % 64 + 0x80 := fun n => Nat.le_add_left _ _
  have hhigh : ∀ n : Nat, n % 64 + 0x80 ≤ (0xBF : UInt8).toNat := fun n => by
    show n % 64 + 0x80 ≤ 0xBF
    omega
  unfold String.utf8EncodeChar
  rw [hnat]
  dsimp only
  split
  next hone =>
    have hv : (UInt8.ofNat v).toNat = v := UInt8.toNat_ofNat_of_lt (show v < 256 by omega)
    have hb : UInt8.ofNat v < 0x80 := by
      rw [UInt8.lt_iff_toNat_lt, hv]
      exact Nat.lt_succ_of_le hone
    simp only [List.cons_append, List.nil_append, scanFrom, step, stepFresh_ascii hb, hv]
  simp only [apply_ite (· ++ rest), List.cons_append, List.nil_append]
  split
  next htwo =>
    rw [scanFrom_lead (by omega) (by omega) (begin?_two (by omega) (by omega)),
      scanFrom_last (v := v) (by omega) (hlow _) (hhigh _) (by omega)]
  split
  next hthree =>
    obtain ⟨low, high, hbegin, hl, hh⟩ :=
      begin?_three (v := v) (by omega) (by omega) (by omega)
    rw [scanFrom_lead (by omega) (by omega) hbegin,
      scanFrom_next (v := v / 64) (by omega) hl hh (by omega),
      scanFrom_last (v := v) (by omega) (hlow _) (hhigh _) (by omega)]
  next hfour =>
    obtain ⟨low, high, hbegin, hl, hh⟩ := begin?_four (v := v) (by omega) (by omega)
    rw [scanFrom_lead (by omega) (by omega) hbegin,
      scanFrom_next (v := v / 4096) (by omega) hl hh (by omega),
      scanFrom_next (v := v / 64) (by omega) (hlow _) (hhigh _) (by omega),
      scanFrom_last (v := v) (by omega) (hlow _) (hhigh _) (by omega)]

theorem decodeLossy_encodeChar (c : Char) (rest : Bytes) :
    decodeLossy (String.utf8EncodeChar c ++ rest) = c :: decodeLossy rest := by
  unfold decodeLossy
  rw [scanFrom_encodeChar, List.map_cons]
  exact congrArg (· :: _) (Char.ofNat_toNat c)

theorem decodeLossy_encode (s : Text) : decodeLossy (encode s) = s := by
  unfold encode
  induction s with
  | nil => rfl
  | cons c s ih => rw [List.flatMap_cons, decodeLossy_encodeChar, ih]

end AliasGate.Utf8
