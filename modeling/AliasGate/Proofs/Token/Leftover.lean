import AliasGate.Proofs.Token.Candidates
import AliasGate.Proofs.Token.Written

/-!
# What stripping leaves

A URL whose fields stand for the arguments of a request loses the fields of the token, and from its
end the separators that belong to no field.

* `Query.kept_stands`: the fields that stripping leaves stand for the arguments of other names.
* `Query.filled_stripped`: the separators at the end belong to none of them.
* `Query.exists_strip`: what is left of a URL, unless a field with the token's name is.
-/

namespace AliasGate.Query

open Candidate (kept behind dropSeparators isSeparator Whole Unmarked)

/-! ## The fields that are left -/

section
variable {k : Text} (hplain : ∀ c ∈ k, Percent.isUnreserved c = true)

/-- The fields that stripping leaves stand for the arguments of other names, unless one is left that
is read as named like the token. -/
theorem kept_stands {gs : List Text} {args : List Argument} (h : List.Forall₂ (Stands k) gs args)
    (hnone : ∀ f ∈ kept (k ++ ['=']) gs, (read f).1 ≠ k) :
    List.Forall₂ (Stands k) (kept (k ++ ['=']) gs) (others k args) := by
  induction h with
  | nil => exact .nil
  | @cons f a gs args hfa _ ih =>
    rw [Candidate.kept_cons] at hnone ⊢
    rw [others_cons]
    by_cases hbegins : (k ++ ['=']) <+: f
    · rw [if_pos hbegins] at hnone ⊢
      rw [if_pos (Classical.not_not.mp fun ha => hfa.stays ha hbegins)]
      exact ih hnone
    · rw [if_neg hbegins] at hnone ⊢
      have ha : a.1 ≠ k := fun ha => (hfa.token ha).elim hbegins (hnone f List.mem_cons_self)
      rw [if_neg ha]
      exact .cons hfa (ih fun g hg => hnone g (List.mem_cons_of_mem f hg))

/-- The last field that is left stands for the last argument of another name. -/
theorem last_stands {gs before : List Text} {f : Text} {args : List Argument}
    (h : List.Forall₂ (Stands k) gs args) (hlast : kept (k ++ ['=']) gs = before ++ [f])
    (hf : (read f).1 ≠ k) : ∃ a ∈ (others k args).getLast?, a.1 ≠ k ∧ Stands k f a := by
  induction h generalizing before with
  | nil => exact absurd hlast.symm (by simp [kept])
  | @cons g a gs args hga hrest ih =>
    rw [Candidate.kept_cons] at hlast
    rw [others_cons]
    by_cases hbegins : (k ++ ['=']) <+: g
    · rw [if_pos hbegins] at hlast
      rw [if_pos (Classical.not_not.mp fun ha => hga.stays ha hbegins)]
      exact ih hlast
    · rw [if_neg hbegins] at hlast
      cases before with
      | nil =>
        obtain ⟨rfl, hnil⟩ := List.cons.inj hlast
        have ha : a.1 ≠ k := fun ha => (hga.token ha).elim hbegins hf
        have hothers := kept_stands hrest (by simp [hnil])
        rw [hnil, List.forall₂_nil_left_iff] at hothers
        rw [if_neg ha, hothers]
        exact ⟨a, rfl, ha, hga⟩
      | cons g' before =>
        obtain ⟨b, hb, hfb⟩ := ih (List.cons.inj hlast).2
        refine ⟨b, ?_, hfb⟩
        split
        · exact hb
        · obtain ⟨init, hinit⟩ := List.getLast?_eq_some_iff.mp hb
          rw [hinit, ← List.cons_append]
          exact List.getLast?_concat

include hplain

/-- A name that is read as the token's has no separators. -/
theorem isSeparator_of_mem_name {name : Text} (h : Percent.decodeForm name = k) :
    ∀ c ∈ name, isSeparator c = false := by
  intro c hc
  rw [Bool.eq_false_iff]
  intro hsep
  have hmem : Percent.Separates c → c ≠ '+' → c ∈ k := fun hseparates hplus =>
    h ▸ Percent.mem_decode hseparates (List.mem_map.mpr ⟨c, hc, if_neg hplus⟩)
  rcases Candidate.isSeparator_iff.mp hsep with rfl | rfl
  · exact Percent.not_mem_of_unreserved hplain rfl (hmem (by decide) (by decide))
  · exact Percent.not_mem_of_unreserved hplain rfl (hmem (by decide) (by decide))

/-- The separators at the end are none of a field that has the name of the token. -/
theorem read_dropSeparators {f : Text} (hne : f ≠ []) (h : (read f).1 = k) :
    dropSeparators f ≠ [] ∧ (read (dropSeparators f)).1 = k := by
  have hname := isSeparator_of_mem_name hplain h
  rcases Text.cut_cases '=' f with ⟨-, hcut⟩ | ⟨name, value, rfl, hequals, hcut⟩
  · rw [hcut] at hname
    have hself : dropSeparators f = f :=
      Text.dropEndWhile_eq_self fun t c ht => hname c (by simp [ht])
    rw [hself]
    exact ⟨hne, h⟩
  · have hdrop : dropSeparators (name ++ '=' :: value) = name ++ '=' :: dropSeparators value :=
      Text.dropEndWhile_append_cons rfl name value
    rw [read_value hequals] at h
    rw [hdrop, read_value hequals]
    exact ⟨by simp, h⟩

/-! ## What stripping leaves -/

section
variable {fs : List Text} {args : List Argument} (h : List.Forall₂ (Stands k) (filled fs) args)

include h

omit hplain in
theorem whole_or_named : ∀ f ∈ fs, '&' ∉ f ∧
    (Whole (k ++ ['=']) f ∨ ¬(k ++ ['=']) <+: f ∧ (read f).1 = k) := by
  intro f hf
  by_cases hne : f = []
  · have hwhole : Whole (k ++ ['=']) f :=
      Whole.of_plain fun c hc => by
        rw [hne] at hc
        cases hc
    exact ⟨hwhole.1, .inl hwhole⟩
  · exact (stands_fields h f (mem_filled.mpr ⟨hf, hne⟩)).2

omit hplain in
theorem filled_kept : filled (Text.fields '&' (Text.joined ['&'] (kept (k ++ ['=']) fs))) =
    kept (k ++ ['=']) (filled fs) := by
  rw [filled_fields_joined fun f hf => (whole_or_named h f (Candidate.mem_kept.mp hf).1).1]
  exact List.filter_comm _ _ fs

/-- A field that does not go or stay as a whole leaves its name. -/
theorem exists_named {base : Text} (hbase : Unmarked (k ++ ['=']) base)
    (hnot : ∃ f ∈ fs, ¬Whole (k ++ ['=']) f) :
    ∃ query, Candidate.strip k (base ++ '?' :: Text.joined ['&'] fs) = base ++ '?' :: query ∧
      ∃ f ∈ filled (Text.fields '&' query), (read f).1 = k := by
  have hm := Candidate.marker_of_unreserved hplain
  have hspelled : ∀ f ∈ fs, Whole (k ++ ['=']) f ∨ '&' ∉ f ∧ ¬(k ++ ['=']) <+: f ∧
      ∃ x y, f = x ++ y ∧ x ≠ [] ∧ (∀ c ∈ x, isSeparator c = false) ∧
        ∃ name, x = name ++ ['='] ∧ '=' ∉ name ∧ Percent.decodeForm name = k := by
    intro f hf
    obtain ⟨hamp, hwhole | ⟨hbegins, hread⟩⟩ := whole_or_named h f hf
    · exact .inl hwhole
    · rcases Text.cut_cases '=' f with ⟨hequals, -⟩ | ⟨name, value, rfl, hequals, -⟩
      · refine .inl ⟨hamp, fun _ c _ hmark => hequals (hmark.subset ?_)⟩
        simp
      · rw [read_value hequals] at hread
        refine .inr ⟨hamp, hbegins, name ++ ['='], value, by simp, by simp, fun c hc => ?_, name,
          rfl, hequals, hread⟩
        rcases List.mem_append.mp hc with hc | hc
        · exact isSeparator_of_mem_name hplain hread c hc
        · rw [List.mem_singleton.mp hc]
          rfl
  obtain ⟨u, x, v, hremove, ⟨name, rfl, hequals, hname⟩, hu⟩ :=
    Candidate.exists_of_not_whole hm hspelled hnot
  refine ⟨u ++ (name ++ '=' :: dropSeparators v), ?_, ?_⟩
  · have hsplit : base ++ '?' :: (u ++ (name ++ ['='] ++ v)) =
        (base ++ '?' :: (u ++ name)) ++ '=' :: v := by simp
    unfold Candidate.strip
    rw [Candidate.removeFrom_append hm hbase (fun h => by cases h) rfl, hremove, hsplit]
    exact (Text.dropEndWhile_append_cons rfl _ v).trans (by simp)
  · have hamp : '&' ∉ name ++ ['='] := by
      intro hmem
      rcases List.mem_append.mp hmem with hmem | hmem
      · cases isSeparator_of_mem_name hplain hname _ hmem
      · cases List.mem_singleton.mp hmem
    obtain ⟨y, rest, hfields⟩ := Text.exists_first_field hamp (dropSeparators v)
    have hread : (read (name ++ ['='] ++ y)).1 = k := by
      rw [List.append_assoc, List.singleton_append, read_value hequals]
      exact hname
    refine ⟨name ++ ['='] ++ y, mem_filled.mpr ⟨?_, by simp⟩, hread⟩
    rw [List.append_cons name]
    rcases hu with rfl | ⟨w, rfl⟩
    · rw [List.nil_append, hfields]
      exact List.mem_cons_self
    · rw [List.append_assoc, List.singleton_append, Text.fields_append, hfields]
      exact List.mem_append_right _ List.mem_cons_self

variable (hlast : ∀ a ∈ (others k args).getLast?, (writeArgument id a).getLast? ≠ some '?')
include hlast

/-- The last field that is left is not lost with the separators at the end. -/
theorem last_kept {before : List Text} {f : Text}
    (hconcat : kept (k ++ ['=']) (filled fs) = before ++ [f]) :
    dropSeparators f ≠ [] ∧ ((read (dropSeparators f)).1 = k ∨ dropSeparators f = f) := by
  have hf : f ∈ filled fs := by
    have hmem : f ∈ kept (k ++ ['=']) (filled fs) := by simp [hconcat]
    exact (Candidate.mem_kept.mp hmem).1
  obtain ⟨hmem, hne⟩ := mem_filled.mp hf
  by_cases hk : (read f).1 = k
  · obtain ⟨hdrop, hread⟩ := read_dropSeparators hplain hne hk
    exact ⟨hdrop, .inl hread⟩
  · obtain ⟨a, ha, hak, hfa⟩ := last_stands h hconcat hk
    have hself : dropSeparators f = f := by
      refine Text.dropEndWhile_eq_self fun t c ht => ?_
      rw [Bool.eq_false_iff]
      intro hsep
      rcases Candidate.isSeparator_iff.mp hsep with rfl | rfl
      · obtain ⟨u, hu⟩ := hfa.last hak t ht
        exact hlast a ha (by rw [hu]; exact List.getLast?_concat)
      · exact hfa.ampersand (by simp [ht])
    exact ⟨by rwa [hself], .inr hself⟩

/-- The separators at the end of a stripped query belong to no field that is left, unless a field is
left that is read as named like the token. -/
theorem filled_stripped {query : Text}
    (hquery : query = dropSeparators (Text.joined ['&'] (kept (k ++ ['=']) fs))) :
    (∃ f ∈ filled (Text.fields '&' query), (read f).1 = k) ∨
      filled (Text.fields '&' query) = kept (k ++ ['=']) (filled fs) := by
  have hjoined := filled_kept h
  rcases List.eq_nil_or_concat (kept (k ++ ['=']) (filled fs)) with hnil | ⟨before, f, hconcat⟩
  · rw [hnil] at hjoined ⊢
    rw [hquery, Candidate.dropSeparators_of_filled hjoined]
    exact .inr rfl
  · rw [List.concat_eq_append] at hconcat
    obtain ⟨hdrop, hk | hself⟩ := last_kept hplain h hlast hconcat
    all_goals
      rw [hconcat] at hjoined ⊢
      rw [hquery, Candidate.filled_dropSeparators hjoined hdrop]
    · exact .inl ⟨_, List.mem_append_right before List.mem_cons_self, hk⟩
    · exact .inr (by rw [hself])

/-- If nothing is left of a query, no argument of another name was in it. -/
theorem others_eq_nil
    (hnil : dropSeparators (Text.joined ['&'] (kept (k ++ ['=']) fs)) = []) :
    others k args = [] := by
  have hjoined := filled_kept h
  rcases List.eq_nil_or_concat (kept (k ++ ['=']) (filled fs)) with hkept | ⟨before, f, hconcat⟩
  · have hothers := kept_stands h (by simp [hkept])
    rwa [hkept, List.forall₂_nil_left_iff] at hothers
  · rw [List.concat_eq_append] at hconcat
    have hfilled := Candidate.filled_dropSeparators (hjoined.trans hconcat)
      (last_kept hplain h hlast hconcat).1
    rw [hnil] at hfilled
    exact absurd hfilled.symm (by simp [filled, Text.fields])

/-- A URL without the fields of the token: either one is left that is read as named like it, or the
fields that do not begin with it are what is left. -/
theorem exists_strip {base : Text} (hbase : Unmarked (k ++ ['=']) base)
    (hending : others k args = [] → ∀ t c, base = t ++ [c] → isSeparator c = false) :
    ∃ query, Candidate.strip k (base ++ '?' :: Text.joined ['&'] fs) = base ++ behind query ∧
      ((∃ f ∈ filled (Text.fields '&' query), (read f).1 = k) ∨
        filled (Text.fields '&' query) = kept (k ++ ['=']) (filled fs)) := by
  by_cases hwhole : ∀ f ∈ fs, Whole (k ++ ['=']) f
  · refine ⟨_, ?_, filled_stripped hplain h hlast rfl⟩
    rw [Candidate.strip_fields (Candidate.marker_of_unreserved hplain) hbase hwhole]
    exact Candidate.dropSeparators_query fun hnil => hending (others_eq_nil hplain h hlast hnil)
  · have hnot : ∃ f ∈ fs, ¬Whole (k ++ ['=']) f := by simpa using hwhole
    obtain ⟨query, hstrip, f, hf, hread⟩ := exists_named hplain h hbase hnot
    refine ⟨query, ?_, .inl ⟨f, hf, hread⟩⟩
    rw [hstrip]
    unfold behind
    split
    next => cases hf
    next => rfl

end

/-! ## The arguments that are read -/

omit hplain in
theorem reading_stands {gs : List Text} {args : List Argument}
    (h : List.Forall₂ (Stands k) gs (others k args)) :
    reading (gs.map read) = reading ((others k args).map pair) := by
  have hne : ∀ a ∈ others k args, a.1 ≠ k := fun a ha => by simpa using (List.mem_filter.mp ha).2
  generalize others k args = rest at h hne
  induction h with
  | nil => rfl
  | @cons f a gs args hfa _ ih =>
    have hrest := ih fun b hb => hne b (List.mem_cons_of_mem a hb)
    obtain ⟨hname, hvalue⟩ := hfa.same (hne a List.mem_cons_self)
    simp only [reading, List.map_cons, pair] at hrest ⊢
    rw [hrest, hname, hvalue]

/-- The pairs of other names are the arguments of other names. -/
theorem others_read {fs : List Text} (h : ∀ f ∈ fs, Clear k (argument f)) :
    others k (fs.map read) = (others k (fs.map argument)).map pair := by
  induction fs with
  | nil => rfl
  | cons f fs ih =>
    have hrest := ih fun g hg => h g (List.mem_cons_of_mem f hg)
    rw [List.map_cons, List.map_cons, others_cons, others_cons, hrest]
    by_cases hk : (argument f).1 = k
    · rw [if_pos hk, if_pos (read_token_name hplain hk)]
    · have hplus := (h f List.mem_cons_self).plus hk
      rw [writeArgument_argument] at hplus
      have hpair : (pair (argument f)).1 ≠ k := hk
      rw [if_neg hk, read_eq_pair hplus, if_neg hpair, List.map_cons]

end

end AliasGate.Query
