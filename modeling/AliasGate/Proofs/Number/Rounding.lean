import AliasGate.Number.Double
import Mathlib.Tactic.Linarith
import Mathlib.Tactic.Ring

/-!
# Rounding to the nearest magnitude

Quotients that are close enough to a magnitude are rounded to it.

* `roundQuotient_eq`: a quotient less than half away from an integer is rounded to it.
* `magnitudeOf_of_close`: a quotient whose distance from a magnitude is at most the `2 · 10^16`th
  part of it is rounded to it. Half a unit in the seventeenth digit is never more than that.
-/

namespace AliasGate.Double

/-! ## Quotients -/

/-- A quotient less than half away from an integer is rounded to it. -/
theorem roundQuotient_eq {num den q : Nat} (hlower : 2 * (q * den) < 2 * num + den)
    (hupper : 2 * num < (2 * q + 1) * den) : roundQuotient num den = q := by
  have hden : 0 < den := by
    rcases Nat.eq_zero_or_pos den with rfl | hpos
    · simp at hupper
    · exact hpos
  have hsplit : den * (num / den) + num % den = num := Nat.div_add_mod num den
  have hrest : num % den < den := Nat.mod_lt num hden
  unfold roundQuotient
  generalize num / den = a at *
  generalize num % den = r at *
  have hle : a ≤ q := by
    by_contra hlt
    have hmul : (2 * q + 1) * den ≤ (2 * a) * den := Nat.mul_le_mul_right den (by omega)
    have hassoc : 2 * a * den = 2 * (den * a) := by ring
    omega
  have hge : q ≤ a + 1 := by
    by_contra hlt
    have hmul : (a + 2) * den ≤ q * den := Nat.mul_le_mul_right den (by omega)
    have hassoc : (a + 2) * den = den * a + 2 * den := by ring
    omega
  obtain rfl | rfl : q = a ∨ q = a + 1 := by omega
  · have hhalf : 2 * r < den := by
      have hassoc : (2 * q + 1) * den = 2 * (den * q) + den := by ring
      omega
    exact if_pos hhalf
  · have hhalf : den < 2 * r := by
      have hassoc : (a + 1) * den = den * a + den := by ring
      omega
    rw [if_neg (by omega), if_pos hhalf]

/-- Only the quotient counts, not how it is written. -/
theorem roundQuotient_mul (k num den : Nat) (hk : 0 < k) :
    roundQuotient (k * num) (k * den) = roundQuotient num den := by
  unfold roundQuotient
  rw [Nat.mul_div_mul_left _ _ hk, Nat.mul_mod_mul_left]
  have hlt : ∀ a b, k * a < k * b ↔ a < b := fun a b => Nat.mul_lt_mul_left hk
  have hdouble : 2 * (k * (num % den)) = k * (2 * (num % den)) := by ring
  simp only [hdouble, hlt]

theorem magnitudeOf_mul (k num den : Nat) (hk : 0 < k) :
    magnitudeOf (k * num) (k * den) = magnitudeOf num den := by
  have hscale : scaleOf (k * num) (k * den) = scaleOf num den := by
    unfold scaleOf
    rw [Nat.mul_assoc, Nat.mul_div_mul_left _ _ hk]
  show scaleOf (k * num) (k * den) * binade + roundQuotient (k * num * grain)
    (k * den * Nat.pow 2 (scaleOf (k * num) (k * den))) = _
  rw [hscale, Nat.mul_assoc k num, Nat.mul_assoc k den, roundQuotient_mul k _ _ hk]
  rfl

/-! ## Magnitudes -/

theorem binade_eq : binade = 2 ^ 52 := rfl

theorem binade_pos : 0 < binade := by decide

theorem grain_pos : 0 < grain := by decide +kernel

/-- A magnitude counts the magnitudes below its scale and those below its significand. -/
theorem scale_mul_add_significand (m : Nat) : scale m * binade + significand m = m := by
  have hsplit : binade * (m / binade) + m % binade = m := Nat.div_add_mod m binade
  unfold scale significand
  by_cases hlt : m < binade
  · rw [if_pos hlt, Nat.div_eq_of_lt hlt]
    omega
  · rw [if_neg hlt]
    have hpos : 1 ≤ m / binade := (Nat.one_le_div_iff binade_pos).mpr (by omega)
    obtain ⟨k, hk⟩ : ∃ k, m / binade = k + 1 := ⟨m / binade - 1, by omega⟩
    rw [hk] at hsplit ⊢
    have hassoc : binade * (k + 1) = k * binade + binade := by ring
    rw [Nat.add_sub_cancel]
    omega

theorem significand_lt (m : Nat) : significand m < 2 * binade := by
  unfold significand
  have hmod : m % binade < binade := Nat.mod_lt m binade_pos
  split <;> omega

theorem significand_pos {m : Nat} (h : m ≠ 0) : 0 < significand m := by
  unfold significand
  have := binade_pos
  split <;> omega

/-- Beyond the smallest scale a significand has all its bits. -/
theorem le_significand {m : Nat} (h : scale m ≠ 0) : binade ≤ significand m := by
  unfold scale at h
  unfold significand
  split
  · next hlt =>
    rw [Nat.div_eq_of_lt hlt] at h
    exact absurd rfl h
  · omega

theorem grains_pos {m : Nat} (h : m ≠ 0) : 0 < grains m :=
  Nat.mul_pos (significand_pos h) (Nat.pow_pos (by decide))

/-! ## Scales -/

theorem scaleOf_eq_zero {num den : Nat} (hden : 0 < den) (h : num * grain < 2 ^ 53 * den) :
    scaleOf num den = 0 := by
  have hquot : num * grain / den < 2 ^ 53 := (Nat.div_lt_iff_lt_mul hden).mpr h
  unfold scaleOf
  by_cases hzero : num * grain / den = 0
  · rw [hzero]
    rfl
  · have := (Nat.log2_lt hzero).mpr hquot
    omega

theorem scaleOf_eq {num den t : Nat} (hden : 0 < den) (hlower : 2 ^ (52 + t) * den ≤ num * grain)
    (hupper : num * grain < 2 ^ (53 + t) * den) : scaleOf num den = t := by
  have hle : 2 ^ (52 + t) ≤ num * grain / den := (Nat.le_div_iff_mul_le hden).mpr hlower
  have hlt : num * grain / den < 2 ^ (53 + t) := (Nat.div_lt_iff_lt_mul hden).mpr hupper
  have hne : num * grain / den ≠ 0 := by
    have := Nat.two_pow_pos (52 + t)
    omega
  have h1 := (Nat.le_log2 hne).mpr hle
  have h2 := (Nat.log2_lt hne).mpr hlt
  unfold scaleOf
  omega

theorem magnitudeOf_of_scaleOf {num den t : Nat} (h : scaleOf num den = t) :
    magnitudeOf num den = t * binade + roundQuotient (num * grain) (2 ^ t * den) := by
  have hcomm : den * Nat.pow 2 t = 2 ^ t * den := Nat.mul_comm _ _
  show scaleOf num den * binade + roundQuotient (num * grain) (den * Nat.pow 2 (scaleOf num den)) = _
  rw [h, hcomm]

/-- A quotient just below the first magnitude of a scale has the scale before, with units half as
large. It is rounded up if it is less than half such a unit away. -/
theorem magnitudeOf_below_scale {num den t : Nat} (hden : 0 < den)
    (hless : num * grain < 2 ^ 53 * (2 ^ t * den))
    (hnear : 2 * (2 ^ 53 * (2 ^ t * den)) < 2 * (num * grain) + 2 ^ t * den) :
    magnitudeOf num den = (t + 1) * binade + 2 ^ 52 := by
  have hpos : 0 < 2 ^ t * den := Nat.mul_pos (Nat.two_pow_pos _) hden
  have hscale : scaleOf num den = t := by
    refine scaleOf_eq hden ?_ ?_
    · have hring : 2 ^ (52 + t) * den = 2 ^ 52 * (2 ^ t * den) := by ring
      omega
    · have hring : 2 ^ (53 + t) * den = 2 ^ 53 * (2 ^ t * den) := by ring
      omega
  have hround : roundQuotient (num * grain) (2 ^ t * den) = 2 ^ 53 :=
    roundQuotient_eq hnear (by omega)
  rw [magnitudeOf_of_scaleOf hscale, hround, binade_eq]
  ring

/-- **Rounding back.** A quotient whose distance from a magnitude is at most the `2 · 10^16`th part
of it is rounded to it. -/
theorem magnitudeOf_of_close {num den m : Nat} (hden : 0 < den)
    (hupper : 2 * 10 ^ 16 * (num * grain) ≤ (2 * 10 ^ 16 + 1) * (grains m * den))
    (hlower : (2 * 10 ^ 16 - 1) * (grains m * den) ≤ 2 * 10 ^ 16 * (num * grain)) :
    magnitudeOf num den = m := by
  have hunits : grains m * den = significand m * (2 ^ scale m * den) := Nat.mul_assoc _ _ _
  have hplace := scale_mul_add_significand m
  have hmany : significand m ≤ 2 ^ 53 - 1 := Nat.le_sub_one_of_lt (significand_lt m)
  have hpos : 0 < 2 ^ scale m * den := Nat.mul_pos (Nat.two_pow_pos _) hden
  have hvalue : significand m * (2 ^ scale m * den) ≤ (2 ^ 53 - 1) * (2 ^ scale m * den) :=
    Nat.mul_le_mul_right _ hmany
  rw [hunits] at hupper hlower
  -- less than half a unit of the last place on either side
  have habove : 2 * (num * grain) < (2 * significand m + 1) * (2 ^ scale m * den) := by
    have hring : (2 * significand m + 1) * (2 ^ scale m * den) =
        2 * (significand m * (2 ^ scale m * den)) + 2 ^ scale m * den := by ring
    omega
  have hbelow : 2 * (significand m * (2 ^ scale m * den)) <
      2 * (num * grain) + 2 ^ scale m * den := by omega
  have hlt : num * grain < 2 ^ (53 + scale m) * den := by
    have hring : 2 ^ (53 + scale m) * den = 2 ^ 53 * (2 ^ scale m * den) := by ring
    omega
  by_cases hsame : scale m = 0 ∨ 2 ^ (52 + scale m) * den ≤ num * grain
  · have hscale : scaleOf num den = scale m := by
      rcases hsame with hzero | hle
      · rw [hzero] at hlt ⊢
        exact scaleOf_eq_zero hden hlt
      · exact scaleOf_eq hden hle hlt
    rw [magnitudeOf_of_scaleOf hscale, roundQuotient_eq hbelow habove, hplace]
  · obtain ⟨hscale, hless⟩ := not_or.mp hsame
    obtain ⟨t, ht⟩ : ∃ t, scale m = t + 1 := ⟨scale m - 1, by omega⟩
    have hfull : 2 ^ 52 ≤ significand m := le_significand hscale
    have hring : 2 ^ (52 + scale m) * den = 2 ^ 52 * (2 ^ scale m * den) := by ring
    have hfirst : significand m = 2 ^ 52 := by
      by_contra hne
      have hmul : (2 ^ 52 + 1) * (2 ^ scale m * den) ≤ significand m * (2 ^ scale m * den) :=
        Nat.mul_le_mul_right _ (by omega)
      omega
    have hhalf : 2 ^ scale m * den = 2 * (2 ^ t * den) := by
      rw [ht]
      ring
    rw [hfirst, hhalf] at hlower
    rw [hring, hhalf] at hless
    rw [magnitudeOf_below_scale (t := t) hden (by omega) (by omega), ← hplace, ht, hfirst]

end AliasGate.Double
