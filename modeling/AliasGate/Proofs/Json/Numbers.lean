import AliasGate.Json.Reader
import AliasGate.Number.Shortest
import AliasGate.Proofs.Number.Shortest
import AliasGate.Proofs.Text.CodePoint

/-!
# Written numbers are read back

* `natOfDigits_ofNat`: the digits of a whole number write it.
* `wholePart?_digits`, `fraction_digits`, `exponent_layout`: each part of a written number is read
  up to where the next one begins.
* `number?_point`, `number?_digits` and their like: one form of a decimal each.
* `number?_decimal`: a decimal is read as the number nearest to it, in whichever of its forms it was
  written. So a finite number is read as itself (`scalar?_finite`), as is a whole number
  (`scalar?_ofInt`).
-/

namespace AliasGate.Json

open WideText (ofText)

/-! ## Digits -/

theorem isAsciiDigit_iff {c : Char} : Text.isAsciiDigit c = true ↔ c.isDigit = true := by
  simp [Text.isAsciiDigit, Char.isDigit, Char.le_def, UInt32.le_iff_toNat_le]

/-- A text of digits. -/
def AllDigits (ds : Text) : Prop := ∀ c ∈ ds, c.isDigit = true

theorem allDigits_ofNat (n : Nat) : AllDigits (Text.ofNat n) := fun _ hc =>
  Nat.isDigit_of_mem_toDigits (by decide) (by decide) hc

theorem allDigits_replicate (n : Nat) : AllDigits (List.replicate n '0') := by
  intro c hc
  rw [List.eq_of_mem_replicate hc]
  rfl

theorem AllDigits.append {ds es : Text} (hds : AllDigits ds) (hes : AllDigits es) :
    AllDigits (ds ++ es) := fun c hc =>
  (List.mem_append.mp hc).elim (hds c) (hes c)

/-- The rest of a text does not go on with a digit. -/
def NoDigit (rest : WideText) : Prop := ∀ c ∈ rest.head?, digit? c = none

theorem digits_append {ds : Text} {rest : WideText} (hds : AllDigits ds) (hrest : NoDigit rest) :
    digits (ofText ds ++ rest) = (ds, rest) := by
  induction ds with
  | nil =>
    cases rest with
    | nil => rfl
    | cons c r =>
      have hc : digit? c = none := hrest c rfl
      show digits (c :: r) = _
      simp only [digits, hc]
  | cons c ds ih =>
    have hc : digit? (.char c) = some c :=
      if_pos (isAsciiDigit_iff.mpr (hds c List.mem_cons_self))
    have ih := ih fun d hd => hds d (List.mem_cons_of_mem c hd)
    show digits (.char c :: (ofText ds ++ rest)) = _
    simp only [digits, hc, ih]

theorem natOfDigits_eq (ds : Text) : natOfDigits ds = Nat.ofDigitChars 10 ds 0 := by
  rw [Nat.ofDigitChars_eq_foldl]
  unfold natOfDigits
  congr 1
  funext n c
  rw [Nat.mul_comm]

theorem natOfDigits_ofNat (n : Nat) : natOfDigits (Text.ofNat n) = n := by
  rw [natOfDigits_eq]
  exact Nat.ofDigitChars_ten_toDigits

/-- Zeros in front do not count. -/
theorem natOfDigits_zeros (k : Nat) (ds : Text) :
    natOfDigits (List.replicate k '0' ++ ds) = natOfDigits ds := by
  rw [natOfDigits_eq, natOfDigits_eq, Nat.ofDigitChars_append, Nat.ofDigitChars_replicate_zero,
    Nat.mul_zero]

/-- A zero at the end is a factor of ten. -/
theorem natOfDigits_append_zeros (k : Nat) (ds : Text) :
    natOfDigits (ds ++ List.replicate k '0') = natOfDigits ds * 10 ^ k := by
  rw [natOfDigits_eq, natOfDigits_eq, Nat.ofDigitChars_append, Nat.ofDigitChars_replicate_zero,
    Nat.mul_comm]

/-- The first digit of a positive number is no zero. -/
theorem head?_ofNat {n : Nat} (h : n ≠ 0) : (Text.ofNat n).head? ≠ some '0' := by
  induction n using Nat.strongRecOn with
  | ind n ih =>
    unfold Text.ofNat
    rw [Nat.toDigits_eq_if (by decide)]
    by_cases hlt : n < 10
    · have hsmall : ∀ n < 10, n ≠ 0 → [Nat.digitChar n].head? ≠ some '0' := by decide
      rw [if_pos hlt]
      exact hsmall n hlt h
    · have ih : (Nat.toDigits 10 (n / 10)).head? ≠ some '0' := ih (n / 10) (by omega) (by omega)
      obtain ⟨c, ds, hds⟩ := List.exists_cons_of_ne_nil
        (Nat.toDigits_ne_nil (n := n / 10) (b := 10))
      rw [hds] at ih
      rw [if_neg hlt, hds]
      exact ih

/-! ## Parts of a number -/

/-- What follows a value: nothing, or a comma or a bracket that closes. -/
def Closes (rest : WideText) : Prop :=
  ∀ c ∈ rest.head?, c = .char ',' ∨ c = .char ']' ∨ c = .char '}'

/-- Digits that begin with another digit than zero are a whole part. -/
theorem wholePart?_digits {ds : Text} {rest : WideText} (hds : AllDigits ds) (hne : ds ≠ [])
    (hzero : ds.head? ≠ some '0') (hrest : NoDigit rest) :
    wholePart? (ofText ds ++ rest) = some (ds, rest) := by
  obtain ⟨c, ds, rfl⟩ := List.exists_cons_of_ne_nil hne
  have hc : ¬c = '0' := fun h => hzero (congrArg some h)
  unfold wholePart?
  rw [digits_append hds hrest]
  exact if_neg hc

theorem wholePart?_zero {rest : WideText} (hrest : NoDigit rest) :
    wholePart? (ofText ['0'] ++ rest) = some (['0'], rest) := by
  have hdigit : AllDigits ['0'] := allDigits_replicate 1
  unfold wholePart?
  rw [digits_append hdigit hrest]
  rfl

theorem fraction_digits {ds : Text} {rest : WideText} (hds : AllDigits ds) (hne : ds ≠ [])
    (hrest : NoDigit rest) :
    fraction (.char '.' :: (ofText ds ++ rest)) = (some ds, rest) := by
  obtain ⟨c, ds, rfl⟩ := List.exists_cons_of_ne_nil hne
  unfold fraction
  simp only [if_true, digits_append hds hrest]

theorem fraction_none {rest : WideText} (h : ∀ c ∈ rest.head?, c ≠ .char '.') :
    fraction rest = (none, rest) := by
  cases rest with
  | nil => rfl
  | cons c r => exact if_neg (h c rfl)

theorem exponent_none {rest : WideText} (h : ∀ c ∈ rest.head?, c ≠ .char 'e' ∧ c ≠ .char 'E') :
    exponent rest = (none, rest) := by
  cases rest with
  | nil => rfl
  | cons c r => exact if_neg fun hc => hc.elim (h c rfl).1 (h c rfl).2

/-- An exponent is read in whichever width it was written. -/
theorem exponent_layout (l : NumberLayout) (e : Int) {rest : WideText} (hrest : NoDigit rest) :
    exponent (ofText (l.exponent e) ++ rest) = (some e, rest) := by
  obtain ⟨ds, hds⟩ : ∃ ds, ds = NumberLayout.padded l.exponentWidth (Text.ofNat e.natAbs) := ⟨_, rfl⟩
  have hall : AllDigits ds := by
    rw [hds]
    exact (allDigits_replicate _).append (allDigits_ofNat _)
  have hvalue : natOfDigits ds = e.natAbs := by
    rw [hds, NumberLayout.padded, natOfDigits_zeros, natOfDigits_ofNat]
  have hne : ds ≠ [] := by
    rw [hds]
    exact List.append_ne_nil_of_right_ne_nil _ Nat.toDigits_ne_nil
  have hdigits := digits_append hall hrest
  obtain ⟨c, ds, rfl⟩ := List.exists_cons_of_ne_nil hne
  unfold NumberLayout.exponent
  rw [← hds]
  by_cases hneg : e < 0
  · have hsign : exponent (ofText ('e' :: '-' :: c :: ds) ++ rest) =
        (some (-(natOfDigits (c :: ds) : Int)), rest) := by
      simp only [WideText.ofText_cons, List.cons_append] at hdigits ⊢
      simp [exponent, sign, hdigits]
    rw [if_pos hneg, hsign, hvalue]
    congr 2
    omega
  · have hsign : exponent (ofText ('e' :: '+' :: c :: ds) ++ rest) =
        (some (natOfDigits (c :: ds) : Int), rest) := by
      simp only [WideText.ofText_cons, List.cons_append] at hdigits ⊢
      simp [exponent, sign, hdigits]
    rw [if_neg hneg, hsign, hvalue]
    congr 2
    omega

namespace Closes

variable {rest : WideText}

theorem noDigit (h : Closes rest) : NoDigit rest := by
  intro c hc
  rcases h c hc with rfl | rfl | rfl <;> rfl

theorem fraction (h : Closes rest) : Json.fraction rest = (none, rest) :=
  fraction_none fun c hc => by rcases h c hc with rfl | rfl | rfl <;> decide

theorem exponent (h : Closes rest) : Json.exponent rest = (none, rest) :=
  exponent_none fun c hc => by rcases h c hc with rfl | rfl | rfl <;> decide

end Closes

/-! ## Numbers -/

theorem number?_of_parts {d : Dialect} {negative : Bool} {whole : Text} {frac : Option Text}
    {exp : Option Int} {s t u rest : WideText} (hwhole : wholePart? s = some (whole, t))
    (hfrac : fraction t = (frac, u)) (hexp : exponent u = (exp, rest)) :
    number? d negative s = (numberOf d negative whole frac exp).map fun j => (j, rest) := by
  unfold number?
  simp only [hwhole, hfrac, hexp]

/-- A number with a fraction or an exponent is the decimal of its digits. -/
theorem numberOf_decimal {d : Dialect} {negative : Bool} {whole : Text} {frac : Option Text}
    {exp : Option Int} (hparts : frac ≠ none ∨ exp ≠ none) (hwhole : whole.length ≤ d.digits) :
    numberOf d negative whole frac exp = some (.number (.ofDecimal negative
      (natOfDigits (whole ++ frac.getD [])) (exp.getD 0 - (frac.getD []).length))) := by
  have hlimit : (d.limitsFractions && !decide (whole.length ≤ d.digits)) = false := by
    simp [hwhole]
  unfold numberOf
  split
  · exact absurd hparts (by simp)
  · rw [hlimit]
    rfl

/-- A dialect takes as many digits before the point as a layout writes. -/
def Dialect.Fits (d : Dialect) (l : NumberLayout) : Prop := 1 ≤ d.digits ∧ l.highest ≤ d.digits

section

variable {d : Dialect} {l : NumberLayout} {negative : Bool} {rest : WideText}

/-- Digits with a fraction behind them, in front of the rest. -/
theorem number?_fraction {whole frac : Text} {exp : Option Int} {t : WideText}
    (hwhole : wholePart? (ofText whole ++ .char '.' :: (ofText frac ++ t)) =
      some (whole, .char '.' :: (ofText frac ++ t)))
    (hlimit : whole.length ≤ d.digits) (hall : AllDigits frac) (hne : frac ≠ []) (ht : NoDigit t)
    (hexp : exponent t = (exp, rest)) :
    number? d negative (ofText whole ++ .char '.' :: (ofText frac ++ t)) =
      some (.number (.ofDecimal negative (natOfDigits (whole ++ frac)) (exp.getD 0 - frac.length)),
        rest) := by
  rw [number?_of_parts hwhole (fraction_digits hall hne ht) hexp,
    numberOf_decimal (.inl (by simp)) hlimit]
  rfl

theorem noDigit_point (t : WideText) : NoDigit (.char '.' :: t) := by
  intro c hc
  obtain rfl := Option.some.inj hc
  rfl

theorem noDigit_exponent (l : NumberLayout) (e : Int) (t : WideText) :
    NoDigit (ofText (l.exponent e) ++ t) := by
  intro c hc
  obtain rfl := Option.some.inj hc
  rfl

/-- Digits before and behind a point. -/
theorem number?_point {whole frac : Text} (hlimit : whole.length ≤ d.digits)
    (hwhole : AllDigits whole) (hne : whole ≠ []) (hhead : whole.head? ≠ some '0')
    (hfrac : AllDigits frac) (hfne : frac ≠ []) (hrest : Closes rest) :
    number? d negative (ofText (whole ++ '.' :: frac) ++ rest) =
      some (.number (.ofDecimal negative (natOfDigits (whole ++ frac)) (-frac.length)), rest) := by
  have hsplit : ofText (whole ++ '.' :: frac) ++ rest =
      ofText whole ++ .char '.' :: (ofText frac ++ rest) := by
    simp [ofText]
  rw [hsplit, number?_fraction (wholePart?_digits hwhole hne hhead (noDigit_point _)) hlimit hfrac
    hfne hrest.noDigit hrest.exponent, Option.getD_none, Int.zero_sub]

/-- A zero, a point, and digits behind zeros. -/
theorem number?_below_one {ds : Text} (hdigits : 1 ≤ d.digits) (k : Nat) (hall : AllDigits ds)
    (hne : ds ≠ []) (hrest : Closes rest) :
    number? d negative (ofText ('0' :: '.' :: List.replicate k '0' ++ ds) ++ rest) =
      some (.number (.ofDecimal negative (natOfDigits ds) (-(k + ds.length : Nat))), rest) := by
  have hsplit : ofText ('0' :: '.' :: List.replicate k '0' ++ ds) ++ rest =
      ofText ['0'] ++ .char '.' :: (ofText (List.replicate k '0' ++ ds) ++ rest) := by
    simp [ofText]
  have hzeros : natOfDigits (['0'] ++ (List.replicate k '0' ++ ds)) = natOfDigits ds :=
    natOfDigits_zeros (k + 1) ds
  rw [hsplit, number?_fraction (wholePart?_zero (noDigit_point _)) hdigits
    ((allDigits_replicate k).append hall) (by simp [hne]) hrest.noDigit hrest.exponent, hzeros,
    Option.getD_none, Int.zero_sub, List.length_append, List.length_replicate]

/-- Digits with zeros behind them, a point and a zero. -/
theorem number?_whole {ds : Text} (k : Nat) (hlimit : ds.length + k ≤ d.digits)
    (hall : AllDigits ds) (hne : ds ≠ []) (hhead : ds.head? ≠ some '0') (hrest : Closes rest) :
    number? d negative (ofText (ds ++ List.replicate k '0' ++ ['.', '0']) ++ rest) =
      some (.number (.ofDecimal negative (natOfDigits ds) k), rest) := by
  have hhead' : (ds ++ List.replicate k '0').head? ≠ some '0' := by
    obtain ⟨c, cs, rfl⟩ := List.exists_cons_of_ne_nil hne
    exact hhead
  have hzeros : natOfDigits (ds ++ List.replicate k '0' ++ ['0']) =
      natOfDigits ds * 10 ^ (k + 1) := by
    rw [List.append_assoc, ← List.replicate_succ', natOfDigits_append_zeros]
  have hdigit : AllDigits ['0'] := allDigits_replicate 1
  rw [number?_point (by simpa using hlimit) (hall.append (allDigits_replicate k)) (by simp [hne])
    hhead' hdigit (by simp) hrest, hzeros, Double.ofDecimal_shift_pow]
  congr 4
  simp only [List.length_singleton]
  omega

/-- One digit and an exponent. -/
theorem number?_digit {c : Char} (hdigits : 1 ≤ d.digits) (hc : c.isDigit = true) (hzero : c ≠ '0')
    (e : Int) (hrest : Closes rest) :
    number? d negative (ofText (c :: l.exponent e) ++ rest) =
      some (.number (.ofDecimal negative (natOfDigits [c]) e), rest) := by
  have hall : AllDigits [c] := fun b hb => List.mem_singleton.mp hb ▸ hc
  have hsplit : ofText (c :: l.exponent e) ++ rest =
      ofText [c] ++ (ofText (l.exponent e) ++ rest) := rfl
  have hfrac : fraction (ofText (l.exponent e) ++ rest) =
      (none, ofText (l.exponent e) ++ rest) := rfl
  have hnumber : numberOf d negative [c] none (some e) =
      some (.number (.ofDecimal negative (natOfDigits ([c] ++ [])) (e - 0))) :=
    numberOf_decimal (.inr (by simp)) hdigits
  rw [hsplit, number?_of_parts (wholePart?_digits hall (by simp) (by simpa using hzero)
    (noDigit_exponent l e _)) hfrac (exponent_layout l e hrest.noDigit), hnumber, List.append_nil,
    Int.sub_zero]
  rfl

/-- One digit before the point, further ones behind it, and an exponent. -/
theorem number?_digits {c : Char} {ds : Text} (hdigits : 1 ≤ d.digits) (hall : AllDigits (c :: ds))
    (hzero : c ≠ '0') (hne : ds ≠ []) (e : Int) (hrest : Closes rest) :
    number? d negative (ofText (c :: '.' :: ds ++ l.exponent e) ++ rest) =
      some (.number (.ofDecimal negative (natOfDigits (c :: ds)) (e - ds.length)), rest) := by
  have hsplit : ofText (c :: '.' :: ds ++ l.exponent e) ++ rest =
      ofText [c] ++ .char '.' :: (ofText ds ++ (ofText (l.exponent e) ++ rest)) := by
    simp [ofText]
  have hfirst : AllDigits [c] := fun b hb => hall b (List.mem_singleton.mp hb ▸ List.mem_cons_self)
  rw [hsplit, number?_fraction (wholePart?_digits hfirst (by simp) (by simpa using hzero)
    (noDigit_point _)) hdigits (fun b hb => hall b (List.mem_cons_of_mem c hb)) hne
    (noDigit_exponent l e _) (exponent_layout l e hrest.noDigit)]
  rfl

/-- **Decimals are read back**, in whichever of its forms a layout writes them. -/
theorem number?_decimal (hfits : d.Fits l) {x : Decimal} (hx : x.digits ≠ 0)
    (hrest : Closes rest) :
    number? d negative (ofText (l.decimal x) ++ rest) =
      some (.number (.ofDecimal negative x.digits x.exponent), rest) := by
  have hall := allDigits_ofNat x.digits
  have hhead := head?_ofNat hx
  have hvalue := natOfDigits_ofNat x.digits
  have hne : Text.ofNat x.digits ≠ [] := Nat.toDigits_ne_nil
  have hhighest := hfits.2
  unfold NumberLayout.decimal
  generalize Text.ofNat x.digits = ds at *
  by_cases hfar : x.exponent + ds.length < l.lowest ∨ l.highest < x.exponent + ds.length
  · rw [if_pos hfar]
    match ds, hne with
    | [c], _ =>
      have hc : c.isDigit = true := hall c List.mem_cons_self
      simp only [List.length_singleton, Nat.cast_one, Int.add_sub_cancel]
      rw [number?_digit hfits.1 hc (by simpa using hhead) _ hrest, hvalue]
    | c :: c' :: cs, _ =>
      have hposition : x.exponent + (c :: c' :: cs).length - 1 - (c' :: cs).length = x.exponent := by
        simp only [List.length_cons]
        omega
      rw [number?_digits hfits.1 hall (by simpa using hhead) (List.cons_ne_nil c' cs) _ hrest, hvalue,
        hposition]
  rw [if_neg hfar]
  by_cases hsmall : x.exponent + ds.length ≤ 0
  · rw [if_pos hsmall, number?_below_one hfits.1 _ hall hne hrest, hvalue]
    congr 4
    omega
  rw [if_neg hsmall]
  by_cases hwhole : 0 ≤ x.exponent
  · rw [if_pos hwhole, number?_whole _ (by omega) hall hne hhead hrest, hvalue,
      Int.toNat_of_nonneg hwhole]
  · rw [if_neg hwhole]
    generalize hk : (x.exponent + ds.length).toNat = k
    have htake : ds.take k ≠ [] := by
      simp only [ne_eq, List.take_eq_nil_iff, hne, or_false]
      omega
    have hdrop : ds.drop k ≠ [] := by
      simp only [ne_eq, List.drop_eq_nil_iff]
      omega
    have hhead' : (ds.take k).head? ≠ some '0' := by
      rw [List.head?_take, if_neg (by omega)]
      exact hhead
    rw [number?_point (by rw [List.length_take]; omega)
      (fun c hc => hall c (List.mem_of_mem_take hc)) htake hhead'
      (fun c hc => hall c (List.mem_of_mem_drop hc)) hdrop hrest, List.take_append_drop, hvalue]
    congr 4
    rw [List.length_drop]
    omega

/-- A finite number is read as itself; the sign in front of it was read before. -/
theorem number?_magnitude (hfits : d.Fits l) (m : Fin Double.finiteCount) (hrest : Closes rest) :
    number? d negative (ofText (l.finite false m) ++ rest) =
      some (.number (.finite negative m), rest) := by
  obtain ⟨m, hm⟩ := m
  have hlayout : l.finite false m =
      if m = 0 then ['0', '.', '0'] else l.decimal (Double.shortest m) := rfl
  rw [hlayout]
  by_cases hzero : m = 0
  · subst hzero
    have hdigit : AllDigits ['0'] := allDigits_replicate 1
    have hvalue : natOfDigits (['0'] ++ ['0']) = 0 := rfl
    show number? d negative (ofText ['0'] ++ .char '.' :: (ofText ['0'] ++ rest)) = _
    rw [number?_fraction (wholePart?_zero (noDigit_point _)) hfits.1 hdigit (by simp) hrest.noDigit
      hrest.exponent, hvalue, Double.ofDecimal_zero]
    rfl
  · have hshortest := Double.ofDecimal_shortest hzero hm
    rw [Double.ofMagnitude, dif_pos hm] at hshortest
    have hdigits : (Double.shortest m).digits ≠ 0 := by
      intro h
      rw [h, Double.ofDecimal_zero] at hshortest
      simp only [Double.ofZero, Double.finite.injEq, Fin.mk.injEq, true_and] at hshortest
      exact hzero hshortest.symm
    rw [if_neg hzero, number?_decimal hfits hdigits hrest, Double.ofDecimal_sign hshortest]

/-- A whole number is read as itself if it has no more digits than the dialect takes. -/
theorem number?_ofNat {n : Nat} (hn : (Text.ofNat n).length ≤ d.digits) (hrest : Closes rest) :
    number? d negative (ofText (Text.ofNat n) ++ rest) =
      some (.int (if negative then -(n : Int) else n), rest) := by
  have hwhole : wholePart? (ofText (Text.ofNat n) ++ rest) = some (Text.ofNat n, rest) := by
    by_cases hzero : n = 0
    · subst hzero
      exact wholePart?_zero hrest.noDigit
    · exact wholePart?_digits (allDigits_ofNat n) Nat.toDigits_ne_nil (head?_ofNat hzero)
        hrest.noDigit
  have hnumber : numberOf d negative (Text.ofNat n) none none =
      some (.int (if negative then -(natOfDigits (Text.ofNat n) : Int)
        else natOfDigits (Text.ofNat n))) := if_pos hn
  rw [number?_of_parts hwhole hrest.fraction hrest.exponent, hnumber, natOfDigits_ofNat]
  rfl

/-! ## Scalars -/

/-- A number begins with a digit. -/
theorem exists_digit_of_number? {s : WideText} {found : Json × WideText}
    (h : number? d negative s = some found) : ∃ c r, s = .char c :: r ∧ c.isDigit = true := by
  unfold number? at h
  split at h
  · cases h
  · next hwhole =>
    unfold wholePart? at hwhole
    rcases s with _ | ⟨c, r⟩
    · cases hwhole
    · rcases c with c | n
      · refine ⟨c, r, rfl, ?_⟩
        by_contra hc
        have hdigit : digit? (.char c) = none := if_neg fun h => hc (isAsciiDigit_iff.mp h)
        simp only [digits, hdigit] at hwhole
        cases hwhole
      · cases hwhole

/-- What begins with a digit is a number. -/
theorem scalar?_of_digit {c : Char} {s : WideText} (hc : c.isDigit = true) :
    scalar? d (.char c :: s) = number? d false (.char c :: s) := by
  have hne : ∀ k : Char, k.isDigit = false → k ≠ c := by
    rintro k hk rfl
    rw [hc] at hk
    cases hk
  simp [scalar?, named?, Text.after?, ofText, hne 'n' rfl, hne 't' rfl, hne 'f' rfl, hne 'N' rfl,
    hne 'I' rfl, hne '-' rfl, (hne '-' rfl).symm]

/-- A minus sign stands in front of a number. -/
theorem scalar?_of_minus {c : Char} {s : WideText} (hc : c.isDigit = true) :
    scalar? d (.char '-' :: .char c :: s) = number? d true (.char c :: s) := by
  have hne : 'I' ≠ c := by
    rintro rfl
    cases hc
  simp [scalar?, named?, Text.after?, hne, ofText]

theorem scalar?_finite (hfits : d.Fits l) (m : Fin Double.finiteCount) (hrest : Closes rest) :
    scalar? d (ofText (l.finite negative m) ++ rest) = some (.number (.finite negative m), rest) := by
  have hread : number? d negative (ofText (l.finite false m) ++ rest) =
      some (.number (.finite negative m), rest) := number?_magnitude hfits m hrest
  obtain ⟨c, r, hs, hc⟩ := exists_digit_of_number? hread
  cases negative with
  | false =>
    rw [hs] at hread ⊢
    rw [scalar?_of_digit hc, hread]
  | true =>
    have hsign : ofText (l.finite true m) ++ rest =
        .char '-' :: (ofText (l.finite false m) ++ rest) := rfl
    rw [hsign, hs]
    rw [hs] at hread
    rw [scalar?_of_minus hc, hread]

theorem scalar?_ofInt {n : Int} (hn : (Text.ofNat n.natAbs).length ≤ d.digits)
    (hrest : Closes rest) :
    scalar? d (ofText (Text.ofInt n) ++ rest) = some (.int n, rest) := by
  cases n with
  | ofNat n =>
    have hread : number? d false (ofText (Text.ofNat n) ++ rest) = some (.int n, rest) :=
      number?_ofNat hn hrest
    obtain ⟨c, r, hs, hc⟩ := exists_digit_of_number? hread
    show scalar? d (ofText (Text.ofNat n) ++ rest) = some (.int n, rest)
    rw [hs] at hread ⊢
    rw [scalar?_of_digit hc, hread]
  | negSucc n =>
    have hread : number? d true (ofText (Text.ofNat (n + 1)) ++ rest) =
        some (.int (.negSucc n), rest) := number?_ofNat hn hrest
    obtain ⟨c, r, hs, hc⟩ := exists_digit_of_number? hread
    show scalar? d (.char '-' :: (ofText (Text.ofNat (n + 1)) ++ rest)) = _
    rw [hs] at hread ⊢
    rw [scalar?_of_minus hc, hread]

end

end AliasGate.Json
