import AliasGate.Text.Case

/-!
# Words in any letter case

Characters beyond ASCII may have ASCII characters in upper case. A word that none of them helps to
spell is the upper case of just those texts whose letters are its own, in either case.

* `Text.Unforged`: the words that no character beyond ASCII helps to spell.
* `Text.upper_eq_iff`: the texts of which such a word is the upper case.
-/

namespace AliasGate.Text

variable {word s : Text} {c : Char}

/-- The upper case of a character beyond ASCII is never written with characters of the word only,
and the word itself is in ASCII. -/
def Unforged (word : Text) : Prop :=
  (∀ form ∈ upperForms, ∃ n ∈ form.2, Char.ofNat n ∉ word) ∧
  (∀ r ∈ upperRuns, ∀ d ∈ word, ¬(0x80 ≤ (d.toNat : Int) - r.shift ∧
    r.first ≤ (d.toNat : Int) - r.shift ∧ (d.toNat : Int) - r.shift ≤ r.last)) ∧
  ∀ d ∈ word, 0 < d.toNat ∧ d.toNat < 0x80

/-- The test for such words. -/
def isUnforged (word : Text) : Bool :=
  upperForms.all (fun form => form.2.any fun n => decide (Char.ofNat n ∉ word)) &&
    (upperRuns.all (fun r => word.all fun d => decide ¬(0x80 ≤ (d.toNat : Int) - r.shift ∧
      r.first ≤ (d.toNat : Int) - r.shift ∧ (d.toNat : Int) - r.shift ≤ r.last)) &&
    word.all fun d => decide (0 < d.toNat ∧ d.toNat < 0x80))

theorem isUnforged_iff : isUnforged word = true ↔ Unforged word := by
  simp only [isUnforged, Unforged, Bool.and_eq_true, List.all_eq_true, List.any_eq_true,
    decide_eq_true_eq]

-- deciding the quantifiers themselves would nest as deep as the tables are long
instance (word : Text) : Decidable (Unforged word) := decidable_of_iff _ isUnforged_iff

theorem toNat_ofNat {n : Nat} (h : 0 < (Char.ofNat n).toNat) : (Char.ofNat n).toNat = n := by
  by_cases hn : n.isValidChar
  · rw [Char.ofNat, dif_pos hn]
    rfl
  · rw [Char.ofNat, dif_neg hn] at h
    exact absurd h (by decide)

/-- A code point stays, or a run that holds it moves it. -/
theorem mapRuns_cases (runs : List CaseRun) (n : Nat) : mapRuns runs n = n ∨
    ∃ r ∈ runs, r.first ≤ n ∧ n ≤ r.last ∧ mapRuns runs n = (n + r.shift).toNat := by
  unfold mapRuns
  cases hrun : runs.findSome? (·.map? n) with
  | none => exact .inl rfl
  | some m =>
    obtain ⟨r, hr, hmap⟩ := List.exists_of_findSome?_eq_some hrun
    unfold CaseRun.map? at hmap
    split at hmap
    next hheld =>
      cases hmap
      exact .inr ⟨r, hr, hheld.1, hheld.2.1, rfl⟩
    next => cases hmap

/-- A character beyond ASCII is not moved to the word. -/
theorem ofNat_mapRuns_not_mem (hword : Unforged word) (hc : 0x80 ≤ c.toNat) :
    Char.ofNat (mapRuns upperRuns c.toNat) ∉ word := by
  intro hmem
  obtain ⟨hpos, hascii⟩ := hword.2.2 _ hmem
  have hcode := toNat_ofNat hpos
  rcases mapRuns_cases upperRuns c.toNat with hself | ⟨r, hr, hfirst, hlast, hmoved⟩
  · omega
  · have hout := hword.2.1 r hr _ hmem
    omega

theorem exists_not_mem_upperChar (hword : Unforged word) (hc : 0x80 ≤ c.toNat) :
    ∃ d ∈ upperChar c, d ∉ word := by
  unfold upperChar
  rw [if_neg (Nat.not_lt.mpr hc)]
  split
  next form hform =>
    obtain ⟨before, after, hforms, -⟩ := List.lookup_eq_some_iff.mp hform
    have hmem : (c.toNat, form) ∈ upperForms :=
      hforms ▸ List.mem_append_right _ List.mem_cons_self
    obtain ⟨n, hn, hout⟩ := hword.1 _ hmem
    exact ⟨_, List.mem_map_of_mem hn, hout⟩
  next => exact ⟨_, List.mem_singleton_self _, ofNat_mapRuns_not_mem hword hc⟩

theorem upper_of_ascii (h : ∀ c ∈ s, c.toNat < 0x80) : s.upper = s.map Char.toUpper := by
  induction s with
  | nil => rfl
  | cons c s ih =>
    have hc : upperChar c = [c.toUpper] := if_pos (h c List.mem_cons_self)
    rw [upper, List.flatMap_cons, hc, List.map_cons]
    exact congrArg (c.toUpper :: ·) (ih fun d hd => h d (List.mem_cons_of_mem c hd))

/-- A word that is not forged is the upper case of the texts that spell it in any letter case. -/
theorem upper_eq_iff (hword : Unforged word) : s.upper = word ↔ s.map Char.toUpper = word := by
  by_cases hs : ∀ c ∈ s, c.toNat < 0x80
  · rw [upper_of_ascii hs]
  obtain ⟨c, hc, hbeyond⟩ : ∃ c ∈ s, 0x80 ≤ c.toNat := by simpa using hs
  obtain ⟨d, hd, hout⟩ := exists_not_mem_upperChar hword hbeyond
  have hself : c.toUpper = c := by
    unfold Char.toUpper
    refine dif_neg fun h => ?_
    have hle : c.toNat ≤ 0x7a := h.2
    omega
  constructor
  · rintro rfl
    exact absurd (List.mem_flatMap.mpr ⟨c, hc, hd⟩) hout
  · rintro rfl
    have hmem : c ∈ s.map Char.toUpper := hself ▸ List.mem_map_of_mem hc
    have hascii := (hword.2.2 c hmem).2
    omega

end AliasGate.Text
