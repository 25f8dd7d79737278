import AliasGate.Proofs.Query.Percent
import AliasGate.Proofs.Text.Fields
import AliasGate.Query.Argument
import Mathlib.Data.List.Forall2
import Mathlib.Data.List.TakeDrop

/-!
# Notations of array arguments

Numbering empty brackets and emptying numbered ones change the notation of a name, and nothing that
is left when the notation is forgotten.

* `Query.Renotated`: one name in two notations.
* `Query.reduceKey_renotated`: the names are the same once the brackets at their end are emptied.
* `Query.index_variants`, `Query.reduce_variants`: arguments in either notation, one by one.
* `Query.reading`: names and values without regard to the notation.
-/

namespace AliasGate.Query

/-! ## Brackets at the end -/

theorem beforeIndex?_eq_some_iff {key name : Text} :
    beforeIndex? key = some name ↔
      ∃ d, d ≠ [] ∧ (∀ c ∈ d, Text.isDecimalDigit c = true) ∧ key = name ++ '[' :: (d ++ [']']) := by
  constructor
  · intro h
    unfold beforeIndex? at h
    split at h
    next s hkey =>
      split at h
      next c d name' hspan =>
        cases h
        rw [List.span_eq_takeWhile_dropWhile, Prod.mk.injEq] at hspan
        refine ⟨(c :: d).reverse, by simp, fun b hb => ?_, ?_⟩
        · rw [← hspan.1, List.mem_reverse] at hb
          exact List.all_eq_true.mp List.all_takeWhile b hb
        · have hs : s = (c :: d) ++ '[' :: name' := by
            rw [← hspan.1, ← hspan.2, List.takeWhile_append_dropWhile]
          rw [← List.reverse_reverse key, hkey, hs]
          simp
      next => cases h
    next => cases h
  · rintro ⟨d, hne, hd, rfl⟩
    have hreverse : (name ++ '[' :: (d ++ [']'])).reverse =
        ']' :: (d.reverse ++ '[' :: name.reverse) := by simp
    have hspan : (d.reverse ++ '[' :: name.reverse).span Text.isDecimalDigit =
        (d.reverse, '[' :: name.reverse) := by
      rw [List.span_eq_takeWhile_dropWhile,
        List.takeWhile_append_of_pos (fun c hc => hd c (List.mem_reverse.mp hc)),
        List.dropWhile_append_of_pos (fun c hc => hd c (List.mem_reverse.mp hc)),
        List.takeWhile_cons_of_neg (by decide), List.dropWhile_cons_of_neg (by decide),
        List.append_nil]
    unfold beforeIndex?
    rw [hreverse]
    simp only [hspan]
    cases hr : d.reverse with
    | nil => exact absurd (List.reverse_eq_nil_iff.mp hr) hne
    | cons c cs => simp

theorem beforeIndex?_empty (name : Text) : beforeIndex? (name ++ ['[', ']']) = none := by
  refine Option.eq_none_iff_forall_ne_some.mpr fun n h => ?_
  obtain ⟨d, hne, hd, hkey⟩ := beforeIndex?_eq_some_iff.mp h
  rcases List.eq_nil_or_concat d with rfl | ⟨d, c, rfl⟩
  · exact hne rfl
  · have hends : (name ++ ['[']) ++ [']'] = (n ++ '[' :: (d ++ [c])) ++ [']'] := by
      simpa using hkey
    have hbracket : name ++ ['['] = (n ++ '[' :: d) ++ [c] := by
      simpa using (List.append_inj' hends rfl).1
    have hc : '[' = c := by
      simpa using (List.append_inj' hbracket rfl).2
    have hdigit := hd c (by simp)
    rw [← hc] at hdigit
    cases hdigit

theorem beforeIndex?_newline (s : Text) : beforeIndex? (s ++ ['\n']) = none := by
  refine Option.eq_none_iff_forall_ne_some.mpr fun n h => ?_
  obtain ⟨d, -, -, hkey⟩ := beforeIndex?_eq_some_iff.mp h
  have hends : s ++ ['\n'] = (n ++ '[' :: d) ++ [']'] := by simpa using hkey
  cases (List.append_inj' hends rfl).2

/-- Digits in the brackets at the end of a name go, whichever they are and how many. -/
theorem reduceKey_brackets (name : Text) {d t : Text} (hd : ∀ c ∈ d, Text.isDecimalDigit c = true)
    (ht : t = [] ∨ t = ['\n']) :
    reduceKey (name ++ '[' :: (d ++ ']' :: t)) = name ++ '[' :: ']' :: t := by
  have hindex : d ≠ [] → beforeIndex? (name ++ '[' :: (d ++ [']'])) = some name := fun hne =>
    beforeIndex?_eq_some_iff.mpr ⟨d, hne, hd, rfl⟩
  have hbefore : Text.before? ['\n'] (name ++ '[' :: (d ++ [']'])) = none := by
    refine Option.eq_none_iff_forall_ne_some.mpr fun u h => ?_
    rw [Text.before?_eq_some_iff] at h
    have hends : (name ++ '[' :: d) ++ [']'] = u ++ ['\n'] := by simpa using h
    cases (List.append_inj' hends rfl).2
  unfold reduceKey
  rcases ht with rfl | rfl
  · by_cases hne : d = []
    · subst hne
      rw [List.nil_append] at hbefore ⊢
      rw [beforeIndex?_empty, hbefore]
      rfl
    · rw [hindex hne]
  · have hnewline : name ++ '[' :: (d ++ [']', '\n']) = (name ++ '[' :: (d ++ [']'])) ++ ['\n'] := by
      simp
    rw [hnewline, beforeIndex?_newline, Text.before?_eq_some_iff.mpr rfl]
    by_cases hne : d = []
    · subst hne
      simp [beforeIndex?_empty]
    · simp [hindex hne]

/-! ## Two notations -/

/-- One name in two notations: the digits in the brackets at its end differ, if anything does. -/
def Renotated (a b : Text) : Prop :=
  b = a ∨ ∃ name d d' t, a = name ++ '[' :: (d ++ ']' :: t) ∧ b = name ++ '[' :: (d' ++ ']' :: t) ∧
    (∀ c ∈ d, Text.isDecimalDigit c = true) ∧ (∀ c ∈ d', Text.isDecimalDigit c = true) ∧
      (t = [] ∨ t = ['\n'])

namespace Renotated

variable {a b : Text} (h : Renotated a b)
include h

theorem symm : Renotated b a := by
  rcases h with rfl | ⟨name, d, d', t, ha, hb, hd, hd', ht⟩
  · exact .inl rfl
  · exact .inr ⟨name, d', d, t, hb, ha, hd', hd, ht⟩

/-- Without brackets there is one notation only. -/
theorem eq_of_not_mem (hbracket : '[' ∉ a) : b = a := by
  rcases h with rfl | ⟨name, d, d', t, rfl, -, -, -, -⟩
  · rfl
  · exact absurd (List.mem_append_right name List.mem_cons_self) hbracket

/-- Another notation brings in nothing but digits. -/
theorem mem_or_digit {c : Char} (hc : c ∈ b) : c ∈ a ∨ Text.isDecimalDigit c = true := by
  rcases h with rfl | ⟨name, d, d', t, rfl, rfl, -, hd', -⟩
  · exact .inl hc
  · simp only [List.mem_append, List.mem_cons] at hc ⊢
    rcases hc with hc | hc | hc | hc | hc
    · exact .inl (.inl hc)
    · exact .inl (.inr (.inl hc))
    · exact .inr (hd' c hc)
    · exact .inl (.inr (.inr (.inr (.inl hc))))
    · exact .inl (.inr (.inr (.inr (.inr hc))))

/-- Both notations end alike. -/
theorem last {u : Text} {c : Char} (hc : b = u ++ [c]) : ∃ w, a = w ++ [c] := by
  rcases h with rfl | ⟨name, d, d', t, rfl, rfl, -, -, ht⟩
  · exact ⟨u, hc⟩
  · rcases ht with rfl | rfl
    · have hends : (name ++ '[' :: d') ++ [']'] = u ++ [c] := by simpa using hc
      obtain ⟨-, hlast⟩ := List.append_inj' hends rfl
      exact ⟨name ++ '[' :: d, by simp [← hlast]⟩
    · have hends : (name ++ '[' :: d' ++ [']']) ++ ['\n'] = u ++ [c] := by simpa using hc
      obtain ⟨-, hlast⟩ := List.append_inj' hends rfl
      exact ⟨name ++ '[' :: d ++ [']'], by simp [← hlast]⟩

/-- A notation that ends in something else than brackets is the only one. -/
theorem eq_of_last {u : Text} {c : Char} (hc : b = u ++ [c]) (hne : c ≠ ']' ∧ c ≠ '\n') : b = a := by
  rcases h with rfl | ⟨name, d, d', t, rfl, rfl, -, -, ht⟩
  · rfl
  · exfalso
    rcases ht with rfl | rfl
    · have hends : (name ++ '[' :: d') ++ [']'] = u ++ [c] := by simpa using hc
      exact hne.1 (List.cons.inj (List.append_inj' hends rfl).2).1.symm
    · have hends : (name ++ '[' :: d' ++ [']']) ++ ['\n'] = u ++ [c] := by simpa using hc
      exact hne.2 (List.cons.inj (List.append_inj' hends rfl).2).1.symm

/-- What decoding leaves alone in one notation, it leaves alone in the other. -/
theorem settled (ha : Percent.decode a = a) : Percent.decode b = b := by
  rcases h with rfl | ⟨name, d, d', t, rfl, rfl, hd, hd', ht⟩
  · exact ha
  · have htail : ∀ {x : Text}, (∀ c ∈ x, Text.isDecimalDigit c = true) →
        Percent.decode (name ++ '[' :: (x ++ ']' :: t)) =
          Percent.decode name ++ '[' :: (x ++ ']' :: t) := by
      intro x hx
      have hpercent : '%' ∉ x ++ ']' :: t := by
        intro hmem
        rcases List.mem_append.mp hmem with hmem | hmem
        · cases hx _ hmem
        · rcases ht with rfl | rfl <;> simp at hmem
      rw [Percent.decode_append (by decide), Percent.decode_eq_self hpercent]
    rw [htail hd] at ha
    rw [htail hd', List.append_cancel_right ha]

end Renotated

theorem reduceKey_renotated {a b : Text} (h : Renotated a b) : reduceKey b = reduceKey a := by
  rcases h with rfl | ⟨name, d, d', t, rfl, rfl, hd, hd', ht⟩
  · rfl
  · rw [reduceKey_brackets name hd ht, reduceKey_brackets name hd' ht]

theorem renotated_reduceKey (a : Text) : Renotated a (reduceKey a) := by
  unfold reduceKey
  split
  next name h =>
    obtain ⟨d, -, hd, rfl⟩ := beforeIndex?_eq_some_iff.mp h
    exact .inr ⟨name, d, [], [], rfl, rfl, hd, by simp, .inl rfl⟩
  next =>
    split
    next name h =>
      obtain ⟨s, hs, h⟩ := Option.bind_eq_some_iff.mp h
      obtain ⟨d, -, hd, rfl⟩ := beforeIndex?_eq_some_iff.mp h
      rw [Text.before?_eq_some_iff] at hs
      exact .inr ⟨name, d, [], ['\n'], by simp [hs], rfl, hd, by simp, .inr rfl⟩
    next => exact .inl rfl

theorem isDecimalDigit_of_mem_ofNat {c : Char} {n : Nat} (h : c ∈ Text.ofNat n) :
    Text.isDecimalDigit c = true := by
  have hdigit := Nat.isDigit_of_mem_toDigits (by decide) (Nat.le_refl 10) h
  rw [Char.isDigit, Bool.and_eq_true] at hdigit
  have hlow : 0x30 ≤ c.toNat := of_decide_eq_true hdigit.1
  have hhigh : c.toNat ≤ 0x39 := of_decide_eq_true hdigit.2
  unfold Text.isDecimalDigit Text.decimalZeros
  rw [List.any_cons, Bool.or_eq_true]
  refine .inl ?_
  rw [Bool.and_eq_true, decide_eq_true_eq, decide_eq_true_eq]
  omega

/-- An argument with its name in another notation. -/
def Variant (a b : Argument) : Prop := Renotated a.1 b.1 ∧ b.2 = a.2

theorem Variant.written_ne_nil {a b : Argument} (h : Variant a b) (ha : writeArgument id a ≠ []) :
    writeArgument id b ≠ [] := by
  obtain ⟨name, value⟩ := a
  obtain ⟨name', value'⟩ := b
  obtain ⟨hren, rfl⟩ := h
  cases value' with
  | none =>
    rintro hnil
    have hname : name' = [] := hnil
    refine ha ?_
    exact (hren.symm.eq_of_not_mem (by simp [hname])).trans hname
  | some v => simp [writeArgument]

theorem indexFrom_variants (seen : List Text) (args : List Argument) :
    List.Forall₂ Variant args (indexFrom seen args) := by
  induction args generalizing seen with
  | nil => exact .nil
  | cons a args ih =>
    obtain ⟨key, value⟩ := a
    rw [indexFrom]
    split
    next name h =>
      rw [unindexed?, Text.before?_eq_some_iff] at h
      refine .cons ⟨.inr ⟨name, [], Text.ofNat (occurrences name seen), [], h, ?_, by simp,
        fun c hc => isDecimalDigit_of_mem_ofNat hc, .inl rfl⟩, rfl⟩ (ih _)
      simp
    next => exact .cons ⟨.inl rfl, rfl⟩ (ih seen)

theorem index_variants (args : List Argument) : List.Forall₂ Variant args (index args) :=
  indexFrom_variants [] args

theorem reduce_variants (args : List Argument) : List.Forall₂ Variant args (reduce args) := by
  unfold reduce
  rw [List.forall₂_map_right_iff]
  exact List.forall₂_same.mpr fun a _ => ⟨renotated_reduceKey a.1, rfl⟩

theorem self_variants (args : List Argument) : List.Forall₂ Variant args args :=
  List.forall₂_same.mpr fun _ _ => ⟨.inl rfl, rfl⟩

/-- Names and values, the names in one notation. -/
def reading (pairs : List (Text × Text)) : List (Text × Text) :=
  pairs.map fun p => (reduceKey p.1, p.2)

end AliasGate.Query
