import AliasGate.Json.Writer
import AliasGate.Proofs.Json.Parts

/-!
# Written values

When a value has a text.

* `write_eq_ok_iff`: it nests no deeper than the format lets it, and no lone surrogate is written.
* `exists_writeWide`: values that hold texts only are written as texts, and finite numbers always.
* `exists_write_iff`: where neither other numbers have a text nor nesting has a limit, nothing else is
  written.
-/

namespace AliasGate.Json

open WideText (ofText)

/-- A value has a text if it does not nest too deep and all its code points are characters. -/
theorem write_eq_ok_iff {f : Format} {j : Json} {t : Text} :
    write f j = .ok t ↔ (∀ limit ∈ f.nesting, j.depth ≤ limit) ∧ writeWide f j = some (ofText t) := by
  have hdeep : f.nesting.any (· < j.depth) = true ↔ ¬∀ limit ∈ f.nesting, j.depth ≤ limit := by
    cases f.nesting <;> simp
  unfold write
  by_cases hdepth : f.nesting.any (· < j.depth) = true
  · rw [if_pos hdepth]
    exact ⟨fun h => (nomatch h), fun h => absurd h.1 (hdeep.mp hdepth)⟩
  · rw [if_neg hdepth, and_iff_right (Decidable.not_not.mp (mt hdeep.mpr hdepth))]
    cases writeWide f j with
    | none => exact ⟨fun h => (nomatch h), fun h => (nomatch h)⟩
    | some s =>
      rw [Option.some.injEq, ← WideText.toText?_eq_some_iff]
      cases hs : WideText.toText? s <;> simp [hs]

/-- The text of an object begins with a brace. -/
theorem write_obj_ne_nil {f : Format} {members : List (WideText × Json)} {t : Text}
    (h : write f (.obj members) = .ok t) : t ≠ [] := by
  rintro rfl
  obtain ⟨s, -, hs⟩ := Option.map_eq_some_iff.mp (write_eq_ok_iff.mp h).2
  cases hs

/-! ## Texts -/

theorem writeString_ofText (s : Text) :
    writeString (ofText s) = ofText ('"' :: s.flatMap escapeChar ++ ['"']) := by
  have hescape : (ofText s).flatMap escape = ofText (s.flatMap escapeChar) := by
    induction s with
    | nil => rfl
    | cons c s ih =>
      rw [WideText.ofText_cons, List.flatMap_cons, ih, List.flatMap_cons, WideText.ofText_append]
      rfl
  rw [writeString, hescape, WideText.ofText_append]
  rfl

/-- A string that is a text is written as a text. -/
theorem exists_writeString {s : WideText} (h : WideText.isText s = true) :
    ∃ t, writeString s = ofText t := by
  obtain ⟨u, rfl⟩ := WideText.isText_iff.mp h
  exact ⟨_, writeString_ofText u⟩

variable {f : Format}

theorem exists_writeElements {js : List Json}
    (h : ∀ j ∈ js, ∃ t, writeWide f j = some (ofText t)) :
    ∃ t, writeElements f js = some (ofText t) := by
  induction js with
  | nil => exact ⟨[], rfl⟩
  | cons j js ih =>
    obtain ⟨t, ht⟩ := h j List.mem_cons_self
    obtain ⟨u, hu⟩ := ih fun x hx => h x (List.mem_cons_of_mem j hx)
    cases js with
    | nil => exact ⟨t, by simp [writeElements, ht]⟩
    | cons j' js => exact ⟨t ++ ',' :: u, by simp [writeElements.eq_2, ht, hu, WideText.ofText_append]⟩

theorem exists_writeMembers {ms : List (WideText × Json)}
    (h : ∀ m ∈ ms, WideText.isText m.1 = true ∧ ∃ t, writeWide f m.2 = some (ofText t)) :
    ∃ t, writeMembers f ms = some (ofText t) := by
  induction ms with
  | nil => exact ⟨[], rfl⟩
  | cons m ms ih =>
    obtain ⟨k, j⟩ := m
    obtain ⟨hk, t, ht⟩ := h (k, j) List.mem_cons_self
    obtain ⟨name, hname⟩ := exists_writeString hk
    obtain ⟨u, hu⟩ := ih fun x hx => h x (List.mem_cons_of_mem _ hx)
    cases ms with
    | nil =>
      exact ⟨name ++ ':' :: t, by simp_all [writeMembers, WideText.ofText_append]⟩
    | cons m' ms =>
      exact ⟨name ++ ':' :: (t ++ ',' :: u),
        by simp_all [writeMembers.eq_2, WideText.ofText_append]⟩

/-- A value that holds texts only is written as a text, if each number in it has one. -/
theorem exists_writeWide {j : Json} (h : All HasText j) (hf : f.nonFinite ≠ none ∨ All IsFinite j) :
    ∃ t, writeWide f j = some (ofText t) := by
  induction j using induct with
  | null => exact ⟨_, rfl⟩
  | bool b => cases b <;> exact ⟨_, rfl⟩
  | int n => exact ⟨_, rfl⟩
  | number x =>
    cases x with
    | finite negative m => exact ⟨_, rfl⟩
    | nan | infinite =>
      have hf := hf.resolve_right fun hfinite => all_number.mp hfinite
      obtain ⟨t, ht⟩ := Option.ne_none_iff_exists'.mp hf
      exact ⟨t, congrArg (Option.map ofText) ht⟩
  | str s =>
    obtain ⟨t, ht⟩ := exists_writeString (all_str.mp h)
    exact ⟨t, congrArg some ht⟩
  | arr js ih =>
    obtain ⟨t, ht⟩ := exists_writeElements fun j hj => ih j hj ((all_arr.mp h).2 j hj)
      (hf.imp_right fun hfinite => (all_arr.mp hfinite).2 j hj)
    exact ⟨'[' :: t ++ [']'], by simp [writeWide, ht, WideText.ofText_append]⟩
  | obj ms ih =>
    have hparts := all_obj.mp h
    obtain ⟨t, ht⟩ := exists_writeMembers fun m hm => ⟨hparts.1 m hm, ih m hm (hparts.2 m hm)
      (hf.imp_right fun hfinite => (all_obj.mp hfinite).2 m hm)⟩
    exact ⟨'{' :: t ++ ['}'], by simp [writeWide, ht, WideText.ofText_append]⟩

/-! ## Parts -/

/-- The text of a list is made of those of its elements. -/
theorem writeElements_part {js : List Json} {s : WideText} (h : writeElements f js = some s) :
    ∀ j ∈ js, ∃ t, writeWide f j = some t ∧ t ⊆ s := by
  induction js generalizing s with
  | nil => exact fun j hj => absurd hj List.not_mem_nil
  | cons j js ih =>
    unfold writeElements at h
    split at h
    next t u ht hu =>
      cases h
      rw [List.forall_mem_cons]
      cases js with
      | nil => exact ⟨⟨t, ht, List.Subset.refl t⟩, fun j hj => absurd hj List.not_mem_nil⟩
      | cons j' js =>
        refine ⟨⟨t, ht, List.subset_append_left _ _⟩, fun k hk => ?_⟩
        obtain ⟨v, hv, hsub⟩ := ih hu k hk
        exact ⟨v, hv, List.Subset.trans hsub
          (List.subset_append_of_subset_right _ (List.subset_cons_self _ _))⟩
    · cases h

/-- The text of an object is made of its names and those of its members. -/
theorem writeMembers_part {ms : List (WideText × Json)} {s : WideText}
    (h : writeMembers f ms = some s) :
    ∀ m ∈ ms, writeString m.1 ⊆ s ∧ ∃ t, writeWide f m.2 = some t ∧ t ⊆ s := by
  induction ms generalizing s with
  | nil => exact fun m hm => absurd hm List.not_mem_nil
  | cons m ms ih =>
    obtain ⟨k, j⟩ := m
    unfold writeMembers at h
    split at h
    next t u ht hu =>
      cases h
      rw [List.forall_mem_cons]
      cases ms with
      | nil =>
        refine ⟨⟨List.subset_append_left _ _, t, ht, ?_⟩, fun m hm => absurd hm List.not_mem_nil⟩
        exact List.subset_append_of_subset_right _ (List.subset_cons_self _ _)
      | cons m' ms =>
        have hrest : ∀ v ⊆ t ++ .char ',' :: u,
            v ⊆ writeString k ++ .char ':' :: (t ++ .char ',' :: u) := fun v hv =>
          List.subset_append_of_subset_right _ (List.subset_cons_of_subset _ hv)
        refine ⟨⟨List.subset_append_left _ _, t, ht, hrest t (List.subset_append_left _ _)⟩,
          fun n hn => ?_⟩
        have hmore : u ⊆ t ++ .char ',' :: u :=
          List.subset_append_of_subset_right _ (List.subset_cons_self _ _)
        obtain ⟨hname, v, hv, hsub⟩ := ih hu n hn
        exact ⟨hrest _ (List.Subset.trans hname hmore), v, hv,
          hrest v (List.Subset.trans hsub hmore)⟩
    · cases h

/-- A string has no lone surrogate that is not written. -/
theorem isText_of_writeString {s : WideText} (h : WideText.isText (writeString s) = true) :
    WideText.isText s = true := by
  refine List.all_eq_true.mpr fun c hc => ?_
  cases c with
  | char c => rfl
  | surrogate n =>
    have hmem : CodePoint.surrogate n ∈ writeString s := by
      refine List.mem_cons_of_mem _ (List.mem_append_left _ (List.mem_flatMap.mpr ⟨_, hc, ?_⟩))
      exact List.mem_singleton_self _
    exact absurd (List.all_eq_true.mp h _ hmem) Bool.false_ne_true

/-- A value holds no lone surrogate that is not written. -/
theorem hasText_of_writeWide {j : Json} {s : WideText} (h : writeWide f j = some s)
    (hs : WideText.isText s = true) : All HasText j := by
  induction j using induct generalizing s with
  | null | bool | int | number => simp [HasText]
  | str k =>
    cases h
    exact all_str.mpr (isText_of_writeString hs)
  | arr js ih =>
    obtain ⟨u, hu, rfl⟩ := Option.map_eq_some_iff.mp h
    refine all_arr.mpr ⟨trivial, fun j hj => ?_⟩
    obtain ⟨t, ht, hsub⟩ := writeElements_part hu j hj
    exact ih j hj ht (WideText.isText_of_subset hs (List.Subset.trans hsub
      (List.subset_append_of_subset_left _ (List.subset_cons_self _ _))))
  | obj ms ih =>
    obtain ⟨u, hu, rfl⟩ := Option.map_eq_some_iff.mp h
    have htext : ∀ t ⊆ u, WideText.isText t = true := fun t ht =>
      WideText.isText_of_subset hs (List.Subset.trans ht
        (List.subset_append_of_subset_left _ (List.subset_cons_self _ _)))
    refine all_obj.mpr ⟨fun m hm => ?_, fun m hm => ?_⟩
    · exact isText_of_writeString (htext _ (writeMembers_part hu m hm).1)
    · obtain ⟨-, t, ht, hsub⟩ := writeMembers_part hu m hm
      exact ih m hm ht (htext t hsub)

/-- Where no other number has a text, a value that is written has only finite numbers. -/
theorem isFinite_of_writeWide (hf : f.nonFinite = none) {j : Json} {s : WideText}
    (h : writeWide f j = some s) : All IsFinite j := by
  induction j using induct generalizing s with
  | null | bool | int | str => simp [IsFinite]
  | number x =>
    cases x with
    | finite negative m => exact all_number.mpr trivial
    | nan | infinite =>
      obtain ⟨t, ht, -⟩ := Option.map_eq_some_iff.mp h
      cases hf.symm.trans ht
  | arr js ih =>
    obtain ⟨u, hu, -⟩ := Option.map_eq_some_iff.mp h
    refine all_arr.mpr ⟨trivial, fun j hj => ?_⟩
    obtain ⟨t, ht, -⟩ := writeElements_part hu j hj
    exact ih j hj ht
  | obj ms ih =>
    obtain ⟨u, hu, -⟩ := Option.map_eq_some_iff.mp h
    refine all_obj.mpr ⟨trivial, fun m hm => ?_⟩
    obtain ⟨-, t, ht, -⟩ := writeMembers_part hu m hm
    exact ih m hm ht

/-- Where neither other numbers have a text nor nesting has a limit, exactly the values with finite
numbers and texts only have a text. -/
theorem exists_write_iff (hf : f.nonFinite = none) (hnesting : f.nesting = none) {j : Json} :
    (∃ t, write f j = .ok t) ↔ All IsFinite j ∧ All HasText j := by
  have hdepth : ∀ limit ∈ f.nesting, j.depth ≤ limit := by
    rw [hnesting]
    exact fun _ h => nomatch h
  constructor
  · rintro ⟨t, ht⟩
    obtain ⟨-, hwide⟩ := write_eq_ok_iff.mp ht
    exact ⟨isFinite_of_writeWide hf hwide, hasText_of_writeWide hwide (WideText.isText_ofText t)⟩
  · rintro ⟨hfinite, htext⟩
    obtain ⟨t, ht⟩ := exists_writeWide htext (.inr hfinite)
    exact ⟨t, write_eq_ok_iff.mpr ⟨hdepth, ht⟩⟩

end AliasGate.Json
