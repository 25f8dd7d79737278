import AliasGate.Text.Basic

/-!
# Fields, cuts and endings

* `Text.fields_eq_splitOn`: splitting at a separator is the splitting of lists, so that the fields
  of a joined text and the joined fields of a text are those of the library.
* `Text.cut_append`, `Text.cut_of_not_mem`: where a text is cut.
* `Text.dropEndWhile_*`: what is stripped from the end.
* `Text.after?_eq_some_iff`, `Text.before?_eq_some_iff`: beginnings and endings as concatenations.
-/

namespace AliasGate.Text

variable {α : Type} [DecidableEq α] {sep : α}

/-! ## Fields -/

theorem fields_eq_splitOn (sep : α) (s : List α) : fields sep s = s.splitOn sep := by
  induction s with
  | nil => rfl
  | cons c s ih =>
    rw [List.splitOn_cons_eq_if_modifyHead, fields, ih]
    by_cases hc : c = sep
    · rw [if_pos hc, if_pos (beq_iff_eq.mpr hc)]
    · rw [if_neg hc, if_neg (fun h => hc (beq_iff_eq.mp h))]
      cases hs : s.splitOn sep with
      | nil => exact absurd hs (List.splitOn_ne_nil sep s)
      | cons f fs => rfl

theorem joined_fields (s : List α) : joined [sep] (fields sep s) = s := by
  rw [fields_eq_splitOn]
  exact List.intercalate_splitOn sep

theorem fields_joined {fs : List (List α)} (h : ∀ f ∈ fs, sep ∉ f) (hne : fs ≠ []) :
    fields sep (joined [sep] fs) = fs := by
  rw [fields_eq_splitOn]
  exact List.splitOn_intercalate sep h hne

theorem fields_of_not_mem {s : List α} (h : sep ∉ s) : fields sep s = [s] := by
  rw [fields_eq_splitOn, List.splitOn_eq_singleton h]

theorem fields_append (s t : List α) :
    fields sep (s ++ sep :: t) = fields sep s ++ fields sep t := by
  simp only [fields_eq_splitOn, List.splitOn_append_cons_self]

theorem not_mem_of_mem_fields {s f : List α} (h : f ∈ fields sep s) : sep ∉ f := by
  induction s generalizing f with
  | nil =>
    rw [List.mem_singleton.mp h]
    exact List.not_mem_nil
  | cons c s ih =>
    simp only [fields] at h
    split at h
    · rcases List.mem_cons.mp h with rfl | h
      · exact List.not_mem_nil
      · exact ih h
    next hc =>
      split at h
      next =>
        rw [List.mem_singleton.mp h, List.mem_singleton]
        exact fun hsep => hc hsep.symm
      next g gs hfields =>
        rcases List.mem_cons.mp h with rfl | h
        · refine fun hsep => ?_
          rcases List.mem_cons.mp hsep with hsep | hsep
          · exact hc hsep.symm
          · exact ih (hfields ▸ List.mem_cons_self) hsep
        · exact ih (hfields ▸ List.mem_cons_of_mem g h)

theorem subset_of_mem_fields {s f : List α} (h : f ∈ fields sep s) : f ⊆ s := by
  induction s generalizing f with
  | nil =>
    rw [List.mem_singleton.mp h]
    exact List.nil_subset []
  | cons c s ih =>
    simp only [fields] at h
    split at h
    · rcases List.mem_cons.mp h with rfl | h
      · exact List.nil_subset _
      · exact List.subset_cons_of_subset c (ih h)
    · split at h
      next => exact List.mem_singleton.mp h ▸ List.cons_subset_cons c (List.nil_subset s)
      next g gs hfields =>
        rcases List.mem_cons.mp h with rfl | h
        · exact List.cons_subset_cons c (ih (hfields ▸ List.mem_cons_self))
        · exact List.subset_cons_of_subset c (ih (hfields ▸ List.mem_cons_of_mem g h))

/-- Behind the last separator stands the last field, and any other could stand there. -/
theorem exists_last_field {c : α} (hc : c ≠ sep) (s : List α) :
    ∃ x f init, s ++ [c] = x ++ f ∧ f ≠ [] ∧ sep ∉ f ∧
      ∀ g, sep ∉ g → fields sep (x ++ g) = init ++ [g] := by
  by_cases h : sep ∈ s
  · obtain ⟨f, y, hreverse, hf⟩ := List.eq_append_cons_of_mem (List.mem_reverse.mpr h)
    have hs : s = (y.reverse ++ [sep]) ++ f.reverse := by
      rw [← List.reverse_reverse s, hreverse]
      simp
    refine ⟨_, f.reverse ++ [c], fields sep y.reverse, by rw [hs, List.append_assoc], by simp, ?_,
      fun g hg => ?_⟩
    · simpa using ⟨hf, hc.symm⟩
    · rw [List.append_assoc, List.singleton_append, fields_append, fields_of_not_mem hg]
  · exact ⟨[], s ++ [c], [], rfl, by simp, by simpa using ⟨h, hc.symm⟩,
      fun g hg => fields_of_not_mem hg⟩

/-- Whatever follows a text without separators, the text begins a field. -/
theorem exists_first_field {x : List α} (h : sep ∉ x) (s : List α) :
    ∃ y rest, fields sep (x ++ s) = (x ++ y) :: rest := by
  induction x with
  | nil =>
    obtain ⟨y, rest, hs⟩ := List.exists_cons_of_ne_nil (List.splitOn_ne_nil sep s)
    exact ⟨y, rest, by rw [fields_eq_splitOn, List.nil_append, hs]; rfl⟩
  | cons c x ih =>
    obtain ⟨y, rest, hfields⟩ := ih fun hx => h (List.mem_cons_of_mem c hx)
    have hc : c ≠ sep := fun hc => h (hc ▸ List.mem_cons_self)
    refine ⟨y, rest, ?_⟩
    rw [List.cons_append, fields, if_neg hc, hfields]
    rfl

omit [DecidableEq α] in
theorem joined_cons_cons (sep f g : List α) (fs : List (List α)) :
    joined sep (f :: g :: fs) = f ++ (sep ++ joined sep (g :: fs)) := by
  unfold joined
  rw [List.intercalate_cons_cons, List.append_assoc]

omit [DecidableEq α] in
theorem joined_concat (sep : List α) {fs : List (List α)} (h : fs ≠ []) (f : List α) :
    joined sep (fs ++ [f]) = joined sep fs ++ (sep ++ f) := by
  induction fs with
  | nil => exact absurd rfl h
  | cons g fs ih =>
    cases fs with
    | nil =>
      rw [List.singleton_append, joined_cons_cons]
      unfold joined
      rw [List.intercalate_singleton, List.intercalate_singleton]
    | cons g' fs =>
      rw [joined_cons_cons, List.append_assoc, List.append_assoc, ← ih (List.cons_ne_nil g' fs)]
      exact joined_cons_cons _ _ _ _

/-! ## Cuts -/

theorem cut_append {s : List α} (h : sep ∉ s) (t : List α) :
    cut sep (s ++ sep :: t) = (s, some t) := by
  induction s with
  | nil => simp [cut]
  | cons c s ih =>
    have hc : c ≠ sep := fun hc => h (hc ▸ List.mem_cons_self)
    rw [List.cons_append, cut, if_neg hc, ih fun hs => h (List.mem_cons_of_mem c hs)]

theorem cut_of_not_mem {s : List α} (h : sep ∉ s) : cut sep s = (s, none) := by
  induction s with
  | nil => rfl
  | cons c s ih =>
    have hc : c ≠ sep := fun hc => h (hc ▸ List.mem_cons_self)
    rw [cut, if_neg hc, ih fun hs => h (List.mem_cons_of_mem c hs)]

/-- A text without the separator, or with one after the part that is cut off. -/
theorem cut_cases (sep : α) (s : List α) :
    sep ∉ s ∧ cut sep s = (s, none) ∨
      ∃ a b, s = a ++ sep :: b ∧ sep ∉ a ∧ cut sep s = (a, some b) := by
  by_cases h : sep ∈ s
  · obtain ⟨a, b, rfl, ha⟩ := List.eq_append_cons_of_mem h
    exact .inr ⟨a, b, rfl, ha, cut_append ha b⟩
  · exact .inl ⟨h, cut_of_not_mem h⟩

theorem cut_fst_subset (sep : α) (s : List α) : (cut sep s).1 ⊆ s := by
  rcases cut_cases sep s with ⟨-, hcut⟩ | ⟨a, b, rfl, -, hcut⟩
  · rw [hcut]
    exact List.Subset.refl s
  · rw [hcut]
    exact List.subset_append_left a _

theorem cut_snd_subset (sep : α) (s : List α) : (cut sep s).2.getD [] ⊆ s := by
  rcases cut_cases sep s with ⟨-, hcut⟩ | ⟨a, b, rfl, -, hcut⟩
  · rw [hcut]
    exact List.nil_subset s
  · rw [hcut]
    exact List.subset_append_of_subset_right a (List.subset_cons_self sep b)

/-- What stands before the first separator is told by the text. -/
theorem append_inj_of_not_mem {a a' b b' : List α} (ha : sep ∉ a) (ha' : sep ∉ a')
    (hb : b = [] ∨ ∃ t, b = sep :: t) (hb' : b' = [] ∨ ∃ t, b' = sep :: t)
    (h : a ++ b = a' ++ b') : a = a' ∧ b = b' := by
  have hcut : ∀ {x y : List α}, sep ∉ x → y = [] ∨ (∃ t, y = sep :: t) →
      (cut sep (x ++ y)).1 = x := by
    rintro x y hx (rfl | ⟨t, rfl⟩)
    · rw [List.append_nil, cut_of_not_mem hx]
    · rw [cut_append hx]
  have haa : a = a' := by rw [← hcut ha hb, h, hcut ha' hb']
  subst haa
  exact ⟨rfl, List.append_cancel_left h⟩

/-! ## Endings -/

omit [DecidableEq α] in
theorem dropEndWhile_concat (p : α → Bool) (s : List α) (c : α) :
    dropEndWhile p (s ++ [c]) = if p c = true then dropEndWhile p s else s ++ [c] := by
  unfold dropEndWhile
  rw [List.reverse_concat, List.dropWhile_cons]
  split
  · rfl
  · rw [List.reverse_cons, List.reverse_reverse]

omit [DecidableEq α] in
theorem dropEndWhile_eq_self {p : α → Bool} {s : List α} (h : ∀ t c, s = t ++ [c] → p c = false) :
    dropEndWhile p s = s := by
  rcases List.eq_nil_or_concat s with rfl | ⟨t, c, rfl⟩
  · rfl
  · rw [List.concat_eq_append] at h ⊢
    rw [dropEndWhile_concat, if_neg (by rw [h t c rfl]; decide)]

omit [DecidableEq α] in
/-- Stripping goes on before a part only if nothing of the part stays. -/
theorem dropEndWhile_append (p : α → Bool) (s t : List α) :
    dropEndWhile p (s ++ t) =
      if dropEndWhile p t = [] then dropEndWhile p s else s ++ dropEndWhile p t := by
  unfold dropEndWhile
  rw [List.reverse_append, List.dropWhile_append]
  cases h : t.reverse.dropWhile p <;> simp

omit [DecidableEq α] in
theorem dropEndWhile_append_cons {p : α → Bool} {c : α} (hc : p c = false) (s t : List α) :
    dropEndWhile p (s ++ c :: t) = s ++ c :: dropEndWhile p t := by
  have hstay : dropEndWhile p (s ++ [c]) = s ++ [c] := by
    rw [dropEndWhile_concat, if_neg (by rw [hc]; decide)]
  rw [List.append_cons, dropEndWhile_append, hstay]
  split
  next h => rw [h]
  next => rw [List.append_assoc, List.singleton_append]

omit [DecidableEq α] in
theorem dropEndWhile_prefix_self (p : α → Bool) (s : List α) : dropEndWhile p s <+: s := by
  rw [← List.reverse_suffix, dropEndWhile, List.reverse_reverse]
  exact List.dropWhile_suffix p

omit [DecidableEq α] in
theorem mem_of_mem_dropEndWhile {p : α → Bool} {s : List α} {c : α} (h : c ∈ dropEndWhile p s) :
    c ∈ s :=
  (dropEndWhile_prefix_self p s).subset h

omit [DecidableEq α] in
theorem dropEndWhile_last {p : α → Bool} {s t : List α} {c : α}
    (h : dropEndWhile p s = t ++ [c]) : p c = false := by
  have hhead := List.head?_dropWhile_not p s.reverse
  rw [List.reverse_eq_iff.mp h, List.reverse_concat] at hhead
  exact hhead

/-! ## Beginnings -/

theorem after?_eq_some_iff {b s t : List α} : after? b s = some t ↔ s = b ++ t := by
  induction b generalizing s with
  | nil => simp [after?]
  | cons c b ih =>
    cases s with
    | nil => simp [after?]
    | cons d s =>
      simp only [after?, List.cons_append, List.cons.injEq]
      split
      next h => rw [ih, h]; simp
      next h => simp [Ne.symm h]

theorem before?_eq_some_iff {e s t : List α} : before? e s = some t ↔ s = t ++ e := by
  unfold before?
  rw [Option.map_eq_some_iff]
  constructor
  · rintro ⟨u, hu, rfl⟩
    rw [after?_eq_some_iff] at hu
    rw [← List.reverse_reverse s, hu, List.reverse_append, List.reverse_reverse]
  · rintro rfl
    exact ⟨t.reverse, after?_eq_some_iff.mpr List.reverse_append, List.reverse_reverse t⟩

/-! ## Characters -/

/-- What a test finds of all characters of a text. -/
theorem forall_mem_of_all {p : Char → Prop} [DecidablePred p] {s : Text}
    (h : (s.all fun c => decide (p c)) = true) : ∀ c ∈ s, p c :=
  fun c hc => of_decide_eq_true (List.all_eq_true.mp h c hc)

end AliasGate.Text
