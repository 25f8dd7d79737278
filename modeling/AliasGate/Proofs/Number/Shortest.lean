import AliasGate.Number.Shortest
import AliasGate.Proofs.Number.Rounding

/-!
# Shortest decimals are read back

The decimal by which a finite number is written is read as that number.

* `ofDecimal_shift`: a zero at the end of the digits may be moved to the exponent, so the form
  without such zeros is read as the same number (`ofDecimal_normalize`).
* `exists_nearest`: for seventeen digits the nearest decimal is read back, so there is a shortest one
  that is.
* `ofDecimal_shortest`: the shortest one is read back.
-/

namespace AliasGate.Double

/-! ## Counts of digits -/

theorem digitCount_pos (n : Nat) : 0 < digitCount n := Nat.length_toDigits_pos

theorem lt_pow_digitCount (n : Nat) : n < 10 ^ digitCount n :=
  (Nat.length_toDigits_le_iff (by decide) (digitCount_pos n)).mp (Nat.le_refl _)

theorem digitCount_le {n k : Nat} (hk : 0 < k) (h : n < 10 ^ k) : digitCount n ≤ k :=
  (Nat.length_toDigits_le_iff (by decide) hk).mpr h

theorem lt_digitCount {n k : Nat} (h : 10 ^ k ≤ n) : k < digitCount n := by
  by_contra hle
  have hlt := Nat.lt_of_lt_of_le (lt_pow_digitCount n)
    (Nat.pow_le_pow_right (by decide) (Nat.not_lt.mp hle))
  omega

theorem pow_le_of_digitCount {n : Nat} (h : n ≠ 0) : 10 ^ (digitCount n - 1) ≤ n := by
  by_contra hlt
  have hpos := digitCount_pos n
  rcases Nat.eq_zero_or_pos (digitCount n - 1) with hzero | hsome
  · rw [hzero] at hlt
    omega
  · have := digitCount_le hsome (Nat.not_le.mp hlt)
    omega

theorem digitCount_mul_ten {n : Nat} (h : n ≠ 0) : digitCount (n * 10) = digitCount n + 1 := by
  unfold digitCount
  rw [Nat.toDigits_of_base_le (by decide) (by omega), Nat.mul_div_cancel _ (by decide)]
  exact List.length_append

/-! ## Decimals -/

variable {negative : Bool} {digits : Nat} {exponent : Int}

/-- A decimal whose first digit stands where numbers are finite is rounded. -/
theorem ofDecimal_eq (hdigits : digits ≠ 0) (hlower : -330 ≤ exponent + digitCount digits)
    (hupper : exponent + digitCount digits ≤ 310) :
    ofDecimal negative digits exponent = ofMagnitude negative
      (magnitudeOf (digits * 10 ^ exponent.toNat) (10 ^ (-exponent).toNat)) := by
  unfold ofDecimal
  rw [if_neg (by omega), if_neg (by omega)]
  rfl

theorem ofDecimal_zero : ofDecimal negative 0 exponent = ofZero negative := by
  unfold ofDecimal
  exact if_pos (Or.inl rfl)

/-- The sign does not take part in rounding. -/
theorem ofDecimal_sign {m : Fin finiteCount}
    (h : ofDecimal false digits exponent = .finite false m) :
    ofDecimal negative digits exponent = .finite negative m := by
  unfold ofDecimal at *
  by_cases hzero : digits = 0 ∨ exponent + digitCount digits < -330
  · rw [if_pos hzero] at h ⊢
    cases h
    rfl
  by_cases hlarge : 310 < exponent + digitCount digits
  · rw [if_neg hzero, if_pos hlarge] at h
    cases h
  · rw [if_neg hzero, if_neg hlarge] at h ⊢
    unfold ofMagnitude at *
    split at h
    · next hlt =>
      rw [dif_pos hlt]
      cases h
      rfl
    · cases h

/-- A zero at the end of the digits may be moved to the exponent. -/
theorem ofDecimal_shift :
    ofDecimal negative (digits * 10) exponent = ofDecimal negative digits (exponent + 1) := by
  by_cases hdigits : digits = 0
  · rw [hdigits, Nat.zero_mul, ofDecimal_zero, ofDecimal_zero]
  have hposition : exponent + digitCount (digits * 10) = exponent + 1 + digitCount digits := by
    rw [digitCount_mul_ten hdigits]
    omega
  have hmagnitude : magnitudeOf (digits * 10 * Nat.pow 10 exponent.toNat)
      (Nat.pow 10 (-exponent).toNat) =
      magnitudeOf (digits * Nat.pow 10 (exponent + 1).toNat)
        (Nat.pow 10 (-(exponent + 1)).toNat) := by
    by_cases hexponent : 0 ≤ exponent
    · have hnum : (exponent + 1).toNat = exponent.toNat + 1 := by omega
      have hden : (-(exponent + 1)).toNat = (-exponent).toNat := by omega
      have hring : digits * 10 * Nat.pow 10 exponent.toNat =
          digits * Nat.pow 10 (exponent.toNat + 1) := by
        rw [Nat.pow_eq, Nat.pow_eq]
        ring
      rw [hnum, hden, hring]
    · have hnum : (exponent + 1).toNat = exponent.toNat := by omega
      have hden : (-exponent).toNat = (-(exponent + 1)).toNat + 1 := by omega
      have hring : digits * 10 * Nat.pow 10 exponent.toNat =
          10 * (digits * Nat.pow 10 exponent.toNat) := by ring
      have hring' : Nat.pow 10 ((-(exponent + 1)).toNat + 1) =
          10 * Nat.pow 10 (-(exponent + 1)).toNat := by
        rw [Nat.pow_eq, Nat.pow_eq]
        ring
      rw [hnum, hden, hring, hring', magnitudeOf_mul 10 _ _ (by decide)]
  have hiff : digits * 10 = 0 ↔ digits = 0 := by omega
  unfold ofDecimal
  simp only [hposition, hmagnitude, hiff]

/-- Zeros at the end of the digits may be moved to the exponent. -/
theorem ofDecimal_shift_pow (k : Nat) :
    ofDecimal negative (digits * 10 ^ k) exponent = ofDecimal negative digits (exponent + k) := by
  induction k generalizing exponent with
  | zero => simp
  | succ k ih =>
    rw [Nat.pow_succ, ← Nat.mul_assoc, ofDecimal_shift, ih]
    congr 1
    omega

theorem ofDecimal_normalize (negative : Bool) (d : Decimal) :
    ofDecimal negative d.normalize.digits d.normalize.exponent =
      ofDecimal negative d.digits d.exponent := by
  have hfrom : ∀ (fuel : Nat) (d : Decimal),
      ofDecimal negative (Decimal.normalizeFrom fuel d).digits
        (Decimal.normalizeFrom fuel d).exponent = ofDecimal negative d.digits d.exponent := by
    intro fuel
    induction fuel with
    | zero => exact fun d => rfl
    | succ fuel ih =>
      intro d
      unfold Decimal.normalizeFrom
      by_cases hzero : d.digits ≠ 0 ∧ d.digits % 10 = 0
      · have hdigits : d.digits / 10 * 10 = d.digits := by omega
        rw [if_pos hzero, ih, ← ofDecimal_shift, hdigits]
      · rw [if_neg hzero]
  exact hfrom _ d

/-! ## Nearest decimals -/

/-- A neighbour is at most half a step away, and none is more than a step. -/
theorem exists_nearest (m : Nat) (e : Int) :
    ∃ q, ⟨q, e⟩ ∈ neighbours m e ∧
      2 * (q * (grain * 10 ^ e.toNat)) ≤
        2 * (grains m * 10 ^ (-e).toNat) + grain * 10 ^ e.toNat ∧
      2 * (grains m * 10 ^ (-e).toNat) ≤
        2 * (q * (grain * 10 ^ e.toNat)) + grain * 10 ^ e.toNat := by
  unfold neighbours
  simp only [Nat.pow_eq]
  generalize grains m * 10 ^ (-e).toNat = num
  have hden : 0 < grain * 10 ^ e.toNat := Nat.mul_pos grain_pos (Nat.pow_pos (by decide))
  generalize grain * 10 ^ e.toNat = den at *
  have hsplit : den * (num / den) + num % den = num := Nat.div_add_mod num den
  have hrest : num % den < den := Nat.mod_lt num hden
  have hbelow : num / den * den = den * (num / den) := Nat.mul_comm _ _
  have habove : (num / den + 1) * den = den * (num / den) + den := by ring
  by_cases hnear : 2 * (num % den) < den ∨ 2 * (num % den) = den ∧ num / den % 2 = 0
  · rw [if_pos hnear]
    refine ⟨num / den, List.mem_cons_self, ?_⟩
    rw [hbelow]
    omega
  · rw [if_neg hnear]
    refine ⟨num / den + 1, List.mem_cons_self, ?_⟩
    rw [habove]
    omega

/-- A quotient of so many digits before its point, cut off after seventeen digits. -/
theorem seventeen_digits {num den s a c : Nat} (hden : 0 < den)
    (hne : num * Nat.pow 10 s / den ≠ 0)
    (hshift : c + digitCount (num * Nat.pow 10 s / den) = 17 + s + a) :
    10 ^ 16 * (den * 10 ^ a) ≤ num * 10 ^ c ∧ num * 10 ^ c < 10 ^ 17 * (den * 10 ^ a) := by
  rw [Nat.pow_eq] at hne hshift
  have hcount := digitCount_pos (num * 10 ^ s / den)
  have hlower := (Nat.le_div_iff_mul_le hden).mp (pow_le_of_digitCount hne)
  have hupper := (Nat.div_lt_iff_lt_mul hden).mp (lt_pow_digitCount (num * 10 ^ s / den))
  generalize digitCount (num * 10 ^ s / den) = k at *
  have hpow : 10 ^ (k - 1) * 10 ^ c = 10 ^ 16 * 10 ^ a * 10 ^ s := by
    rw [← Nat.pow_add, ← Nat.pow_add, ← Nat.pow_add]
    congr 1
    omega
  have hpow' : 10 ^ k * 10 ^ c = 10 ^ 17 * 10 ^ a * 10 ^ s := by
    rw [← Nat.pow_add, ← Nat.pow_add, ← Nat.pow_add]
    congr 1
    omega
  constructor
  · refine Nat.le_of_mul_le_mul_right (c := 10 ^ s) ?_ (Nat.pow_pos (by decide))
    calc 10 ^ 16 * (den * 10 ^ a) * 10 ^ s
        = 10 ^ (k - 1) * den * 10 ^ c := by
          rw [Nat.mul_right_comm (10 ^ (k - 1)), hpow]
          ring
      _ ≤ num * 10 ^ s * 10 ^ c := Nat.mul_le_mul_right _ hlower
      _ = num * 10 ^ c * 10 ^ s := Nat.mul_right_comm _ _ _
  · refine Nat.lt_of_mul_lt_mul_right (a := 10 ^ s) ?_
    calc num * 10 ^ c * 10 ^ s
        = num * 10 ^ s * 10 ^ c := Nat.mul_right_comm _ _ _
      _ < 10 ^ k * den * 10 ^ c := Nat.mul_lt_mul_of_pos_right hupper (Nat.pow_pos (by decide))
      _ = 10 ^ 17 * (den * 10 ^ a) * 10 ^ s := by
          rw [Nat.mul_right_comm (10 ^ k), hpow']
          ring

theorem scale_le {m : Nat} (hfinite : m < finiteCount) : scale m ≤ 2045 := by
  have hquot : m / binade < 2047 := (Nat.div_lt_iff_lt_mul binade_pos).mpr hfinite
  unfold scale
  omega

theorem grains_lt {m t : Nat} (h : scale m ≤ t) : grains m < 2 ^ 53 * 2 ^ t := by
  have hsignificand : significand m < 2 ^ 53 := significand_lt m
  calc significand m * 2 ^ scale m
      < 2 ^ 53 * 2 ^ scale m := Nat.mul_lt_mul_of_pos_right hsignificand (Nat.two_pow_pos _)
    _ ≤ 2 ^ 53 * 2 ^ t := Nat.mul_le_mul_left _ (Nat.pow_le_pow_right (by decide) h)

/-- The digits before the point of a finite magnitude that is scaled up. The bounds are those of the
smallest and of the greatest magnitude. -/
theorem digitCount_scaled {m : Nat} (K few many : Nat) (hm : m ≠ 0) (hfinite : m < finiteCount)
    (hfew : 10 ^ few * grain ≤ K) (hmany : 2 ^ 53 * 2 ^ 2045 * K < 10 ^ many * grain)
    (hpos : 0 < many) :
    few < digitCount (grains m * K / grain) ∧ digitCount (grains m * K / grain) ≤ many := by
  have hlower : K ≤ grains m * K := Nat.le_mul_of_pos_left K (grains_pos hm)
  have hupper : grains m * K ≤ 2 ^ 53 * 2 ^ 2045 * K :=
    Nat.mul_le_mul_right K (Nat.le_of_lt (grains_lt (scale_le hfinite)))
  constructor
  · exact lt_digitCount ((Nat.le_div_iff_mul_le grain_pos).mpr (Nat.le_trans hfew hlower))
  · exact digitCount_le hpos
      ((Nat.div_lt_iff_lt_mul grain_pos).mpr (Nat.lt_of_le_of_lt hupper hmany))

/-- A positive magnitude is a number of so many digits at its position. -/
theorem position_spec {m : Nat} (hm : m ≠ 0) (hfinite : m < finiteCount) :
    -323 ≤ position m ∧ position m ≤ 309 ∧
      10 ^ 16 * (grain * 10 ^ (position m - 17).toNat) ≤
        grains m * 10 ^ (-(position m - 17)).toNat ∧
      grains m * 10 ^ (-(position m - 17)).toNat <
        10 ^ 17 * (grain * 10 ^ (position m - 17).toNat) := by
  have hposition : position m = (digitCount (grains m * Nat.pow 10 400 / grain) : Int) - 400 := rfl
  obtain ⟨hfew, hmany⟩ := digitCount_scaled (Nat.pow 10 400) 76 709 hm hfinite
    (by decide +kernel) (by decide +kernel) (by decide)
  have hne : grains m * Nat.pow 10 400 / grain ≠ 0 := by
    intro hzero
    rw [hzero] at hfew
    exact absurd hfew (by decide)
  exact ⟨by omega, by omega, seventeen_digits grain_pos hne (by omega)⟩

/-- **Seventeen digits.** The nearest decimal of seventeen digits is read back. -/
theorem exists_readsAs {m : Nat} (hm : m ≠ 0) (hfinite : m < finiteCount) :
    ∃ d ∈ neighbours m (position m - 17), readsAs m d = true := by
  obtain ⟨hlow, hhigh, hlower, hupper⟩ := position_spec hm hfinite
  obtain ⟨q, hq, habove, hbelow⟩ := exists_nearest m (position m - 17)
  refine ⟨⟨q, position m - 17⟩, hq, ?_⟩
  generalize he : position m - 17 = e at *
  have hstep : 0 < grain * 10 ^ e.toNat := Nat.mul_pos grain_pos (Nat.pow_pos (by decide))
  have hleast : 10 ^ 16 ≤ q := by
    by_contra hlt
    have hmul : (q + 1) * (grain * 10 ^ e.toNat) ≤ 10 ^ 16 * (grain * 10 ^ e.toNat) :=
      Nat.mul_le_mul_right _ (by omega)
    have hring : (q + 1) * (grain * 10 ^ e.toNat) =
        q * (grain * 10 ^ e.toNat) + grain * 10 ^ e.toNat := by ring
    omega
  have hmost : q < 10 ^ 18 := by
    by_contra hle
    have hmul : 10 ^ 18 * (grain * 10 ^ e.toNat) ≤ q * (grain * 10 ^ e.toNat) :=
      Nat.mul_le_mul_right _ (Nat.not_lt.mp hle)
    omega
  have hcount := lt_digitCount hleast
  have hcount' := digitCount_le (by decide) hmost
  have hunits : q * 10 ^ e.toNat * grain = q * (grain * 10 ^ e.toNat) := by ring
  have hmagnitude : magnitudeOf (q * 10 ^ e.toNat) (10 ^ (-e).toNat) = m :=
    magnitudeOf_of_close (Nat.pow_pos (by decide)) (by omega) (by omega)
  have hreads : ofDecimal false q e = ofMagnitude false m := by
    rw [ofDecimal_eq (by omega) (by omega) (by omega), hmagnitude]
  exact beq_iff_eq.mpr hreads

theorem shortest_eq (m : Nat) :
    shortest m = ((((List.range 17).flatMap fun (n : Nat) =>
      neighbours m (position m - ((n + 1 : Nat) : Int))).find? (readsAs m)).getD ⟨0, 0⟩).normalize :=
  rfl

/-- **Shortest decimals are read back.** -/
theorem ofDecimal_shortest {m : Nat} (hm : m ≠ 0) (hfinite : m < finiteCount) :
    ofDecimal false (shortest m).digits (shortest m).exponent = ofMagnitude false m := by
  rw [shortest_eq, ofDecimal_normalize]
  obtain ⟨d, hd, hreads⟩ := exists_readsAs hm hfinite
  have hmem : d ∈ (List.range 17).flatMap fun (n : Nat) =>
      neighbours m (position m - ((n + 1 : Nat) : Int)) :=
    List.mem_flatMap.mpr ⟨16, List.mem_range.mpr (by decide), hd⟩
  generalize ((List.range 17).flatMap fun (n : Nat) =>
    neighbours m (position m - ((n + 1 : Nat) : Int))) = candidates at *
  cases hfind : candidates.find? (readsAs m) with
  | none => exact absurd hreads (List.find?_eq_none.mp hfind d hmem)
  | some d' =>
    have hreads' : readsAs m d' = true := List.find?_some hfind
    unfold readsAs at hreads'
    rw [Option.getD_some]
    exact eq_of_beq hreads'

end AliasGate.Double
