import AliasGate.Proofs.Query.Arguments
import AliasGate.Proofs.Query.ArrayKey

/-!
# Numbering and its inverse

What `Query.index` makes of a list of arguments, and what `Query.reduce` makes of that.

* `Query.index_eq_mapIdx`: a name in empty brackets is numbered by how many arguments of the same
  name come before it. Nothing else changes.
* `Query.index_index`: no empty brackets are left.
* `Query.Numbered`, `Query.reduceKey_eq_self_iff`: the names that reduction changes are those with a
  number at their end. Without them it undoes the numbering (`Query.reduce_index`).
* `Query.lookup_variants`: a name without brackets has the same first value in every notation.
-/

namespace AliasGate.Query

/-! ## Numbers -/

theorem unindexed?_eq_some_iff {key name : Text} :
    unindexed? key = some name ↔ key = name ++ ['[', ']'] :=
  Text.before?_eq_some_iff

theorem unindexed?_of_not_mem {key : Text} (h : '[' ∉ key) : unindexed? key = none := by
  refine Option.eq_none_iff_forall_ne_some.mpr fun name hname => ?_
  rw [unindexed?_eq_some_iff] at hname
  exact h (hname ▸ List.mem_append_right name List.mem_cons_self)

/-- The argument at a position, with a number between its brackets if these are empty: how often its
name was numbered before, and how many of the arguments before it have its name. -/
def numberedAfter (seen : List Text) (args : List Argument) (i : Nat) (a : Argument) : Argument :=
  match unindexed? a.1 with
  | some name =>
    (name ++ '[' :: Text.ofNat (occurrences name seen + ((args.take i).map (·.1)).count a.1) ++ [']'],
      a.2)
  | none => a

section
variable {key name : Text} (value : Option Text) (seen : List Text) (args : List Argument) (i : Nat)

/-- An argument that is not numbered counts for none of those behind it. -/
theorem numberedAfter_plain (h : unindexed? key = none) :
    numberedAfter seen ((key, value) :: args) (i + 1) = numberedAfter seen args i := by
  funext a
  unfold numberedAfter
  cases hname : unindexed? a.1 with
  | none => rfl
  | some name =>
    have hne : key ≠ a.1 := by
      rintro rfl
      rw [hname] at h
      cases h
    simp only [List.take_succ_cons, List.map_cons, List.count_cons_of_ne hne]

/-- One that is numbered counts for those of its name, as one numbered before would. -/
theorem numberedAfter_bracketed (h : unindexed? key = some name) :
    numberedAfter seen ((key, value) :: args) (i + 1) = numberedAfter (name :: seen) args i := by
  funext a
  unfold numberedAfter
  cases hname : unindexed? a.1 with
  | none => rfl
  | some name' =>
    rw [unindexed?_eq_some_iff] at h hname
    have hcount : occurrences name' seen + (key :: (args.take i).map (·.1)).count a.1 =
        occurrences name' (name :: seen) + ((args.take i).map (·.1)).count a.1 := by
      rw [occurrences, occurrences, List.count_cons, List.count_cons]
      by_cases hsame : name = name'
      · have hkeys : key = a.1 := by rw [h, hname, hsame]
        simp only [hsame, hkeys, beq_self_eq_true, ↓reduceIte]
        omega
      · have hkeys : key ≠ a.1 := by
          rw [h, hname]
          exact fun heq => hsame (List.append_cancel_right heq)
        rw [beq_false_of_ne hsame, beq_false_of_ne hkeys]
        simp
    simp only [List.take_succ_cons, List.map_cons, hcount]

end

theorem indexFrom_eq_mapIdx (seen : List Text) (args : List Argument) :
    indexFrom seen args = args.mapIdx (numberedAfter seen args) := by
  induction args generalizing seen with
  | nil => rfl
  | cons a args ih =>
    obtain ⟨key, value⟩ := a
    rw [indexFrom, List.mapIdx_cons]
    cases hkey : unindexed? key with
    | none =>
      have hhead : numberedAfter seen ((key, value) :: args) 0 (key, value) = (key, value) := by
        simp only [numberedAfter, hkey]
      simp only [hhead, numberedAfter_plain value seen args _ hkey, ih]
    | some name =>
      have hhead : numberedAfter seen ((key, value) :: args) 0 (key, value) =
          (name ++ '[' :: Text.ofNat (occurrences name seen) ++ [']'], value) := by
        simp only [numberedAfter, hkey, List.take_zero, List.map_nil, List.count_nil, Nat.add_zero]
      simp only [hhead, numberedAfter_bracketed value seen args _ hkey, ih]

/-- The argument at a position, with a number between its brackets if these are empty: how many of the
arguments before it have its name. -/
def numberedAt (args : List Argument) (i : Nat) (a : Argument) : Argument :=
  match unindexed? a.1 with
  | some name => (name ++ '[' :: Text.ofNat (((args.take i).map (·.1)).count a.1) ++ [']'], a.2)
  | none => a

/-- **Numbering.** Each name in empty brackets is numbered from zero on, in order and apart from the
other names. Values and other names stay. -/
theorem index_eq_mapIdx (args : List Argument) : index args = args.mapIdx (numberedAt args) := by
  have hfirst : numberedAfter [] args = numberedAt args := by
    funext i a
    simp only [numberedAfter, numberedAt, occurrences, List.count_nil, Nat.zero_add]
  rw [index, indexFrom_eq_mapIdx, hfirst]

/-- What has no empty brackets at the end of a name stays. -/
theorem indexFrom_eq_self {args : List Argument} (h : ∀ a ∈ args, unindexed? a.1 = none)
    (seen : List Text) : indexFrom seen args = args := by
  induction args generalizing seen with
  | nil => rfl
  | cons a args ih =>
    obtain ⟨key, value⟩ := a
    have hkey : unindexed? key = none := h _ List.mem_cons_self
    rw [indexFrom, hkey]
    exact congrArg _ (ih (fun b hb => h b (List.mem_cons_of_mem _ hb)) seen)

/-- A number is not empty. -/
theorem unindexed?_number (name : Text) (n : Nat) :
    unindexed? (name ++ '[' :: Text.ofNat n ++ [']']) = none := by
  refine Option.eq_none_iff_forall_ne_some.mpr fun name' h => ?_
  rw [unindexed?_eq_some_iff] at h
  have hends : (name ++ '[' :: Text.ofNat n) ++ [']'] = (name' ++ ['[']) ++ [']'] := by simpa using h
  have hfront : name ++ '[' :: Text.ofNat n = name' ++ ['['] := (List.append_inj' hends rfl).1
  have hne : Text.ofNat n ≠ [] := Nat.toDigits_ne_nil
  obtain ⟨d, c, hdigits⟩ : ∃ d c, Text.ofNat n = d ++ [c] :=
    ⟨_, _, (List.dropLast_concat_getLast hne).symm⟩
  rw [hdigits, ← List.cons_append, ← List.append_assoc] at hfront
  have hc : c = '[' := (List.cons.inj (List.append_inj' hfront rfl).2).1
  have hdigit := isDecimalDigit_of_mem_ofNat (hdigits ▸ List.mem_append_right d List.mem_cons_self)
  rw [hc] at hdigit
  cases hdigit

theorem unindexed?_of_mem_indexFrom {seen : List Text} {args : List Argument} {a : Argument}
    (h : a ∈ indexFrom seen args) : unindexed? a.1 = none := by
  induction args generalizing seen with
  | nil => cases h
  | cons b args ih =>
    obtain ⟨key, value⟩ := b
    rw [indexFrom] at h
    cases hkey : unindexed? key with
    | none =>
      rw [hkey] at h
      rcases List.mem_cons.mp h with rfl | h
      · exact hkey
      · exact ih h
    | some name =>
      rw [hkey] at h
      rcases List.mem_cons.mp h with rfl | h
      · exact unindexed?_number name _
      · exact ih h

/-- Numbering leaves nothing to number. -/
theorem index_index (args : List Argument) : index (index args) = index args :=
  indexFrom_eq_self (fun _ => unindexed?_of_mem_indexFrom) []

/-- An argument behind the others that has no empty brackets stays as it is. -/
theorem index_concat (args : List Argument) {a : Argument} (ha : unindexed? a.1 = none) :
    index (args ++ [a]) = index args ++ [a] := by
  have hfrom : ∀ seen, indexFrom seen (args ++ [a]) = indexFrom seen args ++ [a] := by
    induction args with
    | nil =>
      intro seen
      exact indexFrom_eq_self (fun b hb => List.mem_singleton.mp hb ▸ ha) seen
    | cons b args ih =>
      intro seen
      obtain ⟨key, value⟩ := b
      rw [List.cons_append, indexFrom, indexFrom]
      cases unindexed? key with
      | none => exact congrArg _ (ih seen)
      | some name => exact congrArg _ (ih (name :: seen))
  exact hfrom []

/-! ## Numbers taken away -/

/-- A name with a number in brackets at its end, before a line feed perhaps. The digits may be those
of any script. -/
def Numbered (key : Text) : Prop :=
  ∃ name d t, d ≠ [] ∧ (∀ c ∈ d, Text.isDecimalDigit c = true) ∧ (t = [] ∨ t = ['\n']) ∧
    key = name ++ '[' :: (d ++ ']' :: t)

/-- Reduction leaves exactly the other names alone. -/
theorem reduceKey_eq_self_iff {key : Text} : reduceKey key = key ↔ ¬Numbered key := by
  constructor
  · rintro h ⟨name, d, t, hne, hd, ht, rfl⟩
    rw [reduceKey_brackets name hd ht] at h
    have htail : ']' :: t = d ++ ']' :: t := (List.cons.inj (List.append_cancel_left h)).2
    exact hne (List.append_left_eq_self.mp htail.symm)
  · intro h
    unfold reduceKey
    split
    next name hname =>
      obtain ⟨d, hne, hd, rfl⟩ := beforeIndex?_eq_some_iff.mp hname
      exact absurd ⟨name, d, [], hne, hd, .inl rfl, rfl⟩ h
    next =>
      split
      next name hname =>
        obtain ⟨s, hs, hname⟩ := Option.bind_eq_some_iff.mp hname
        obtain ⟨d, hne, hd, rfl⟩ := beforeIndex?_eq_some_iff.mp hname
        rw [Text.before?_eq_some_iff] at hs
        exact absurd ⟨name, d, ['\n'], hne, hd, .inr rfl, by simp [hs]⟩ h
      next => rfl

instance (key : Text) : Decidable (Numbered key) :=
  decidable_of_iff (¬reduceKey key = key) (by rw [reduceKey_eq_self_iff, Classical.not_not])

theorem reduceKey_of_not_mem {key : Text} (h : '[' ∉ key) : reduceKey key = key :=
  (renotated_reduceKey key).eq_of_not_mem h

theorem reduce_eq_self {args : List Argument} (h : ∀ a ∈ args, ¬Numbered a.1) :
    reduce args = args := by
  have hid : ∀ a ∈ args, (reduceKey a.1, a.2) = id a := fun a ha =>
    Prod.ext (reduceKey_eq_self_iff.mpr (h a ha)) rfl
  exact (List.map_congr_left hid).trans (List.map_id args)

/-- Variants are reduced to the same. -/
theorem reduce_eq_of_variants {args variants : List Argument}
    (h : List.Forall₂ Variant args variants) : reduce variants = reduce args := by
  induction h with
  | nil => rfl
  | @cons a b args variants hab _ ih =>
    have hhead : (reduceKey b.1, b.2) = (reduceKey a.1, a.2) := by
      rw [reduceKey_renotated hab.1, hab.2]
    exact congrArg₂ List.cons hhead ih

/-- **Reduction undoes numbering** where no name has a number to begin with. -/
theorem reduce_index {args : List Argument} (h : ∀ a ∈ args, ¬Numbered a.1) :
    reduce (index args) = args := by
  rw [reduce_eq_of_variants (index_variants args), reduce_eq_self h]

theorem reduce_concat (args : List Argument) {a : Argument} (ha : '[' ∉ a.1) :
    reduce (args ++ [a]) = reduce args ++ [a] := by
  simp only [reduce, List.map_append, List.map_cons, List.map_nil, reduceKey_of_not_mem ha]

/-! ## Names without brackets -/

/-- Another notation of a name is not empty. -/
theorem names_variants {args variants : List Argument} (h : List.Forall₂ Variant args variants)
    (hargs : ∀ a ∈ args, a.1 ≠ []) : ∀ a ∈ variants, a.1 ≠ [] := by
  induction h with
  | nil => nofun
  | @cons a b args variants hab _ ih =>
    intro c hc
    rcases List.mem_cons.mp hc with rfl | hc
    · intro hnil
      have hsame : a.1 = c.1 := hab.1.symm.eq_of_not_mem (hnil ▸ List.not_mem_nil)
      exact hargs a List.mem_cons_self (hsame.trans hnil)
    · exact ih (fun a ha => hargs a (List.mem_cons_of_mem _ ha)) c hc

/-- A name without brackets has the same first value in every notation. -/
theorem lookup_variants {args variants : List Argument} (h : List.Forall₂ Variant args variants)
    {name : Text} (hname : '[' ∉ name) :
    (variants.map pair).lookup name = (args.map pair).lookup name := by
  induction h with
  | nil => rfl
  | @cons a b args variants hab _ ih =>
    have hsame : name = b.1 ↔ name = a.1 := by
      constructor
      · rintro rfl
        exact (hab.1.symm.eq_of_not_mem hname).symm
      · rintro rfl
        exact (hab.1.eq_of_not_mem hname).symm
    have hbeq : (name == b.1) = (name == a.1) := by
      rw [Bool.eq_iff_iff, beq_iff_eq, beq_iff_eq]
      exact hsame
    simp only [List.map_cons, pair, List.lookup_cons, hbeq, hab.2]
    rw [ih]

end AliasGate.Query
