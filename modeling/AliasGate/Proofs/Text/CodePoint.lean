import AliasGate.Text.CodePoint

/-!
# Texts among code points

A wide text is the code points of a text exactly if it holds no lone surrogate. Such a text is one
run, and there is nothing in it to join or to replace.
-/

namespace AliasGate.WideText

@[simp] theorem ofText_nil : ofText [] = [] := rfl

@[simp] theorem ofText_cons (c : Char) (s : Text) : ofText (c :: s) = .char c :: ofText s := rfl

theorem ofText_append (s t : Text) : ofText (s ++ t) = ofText s ++ ofText t := List.map_append

theorem toText?_eq_some_iff {s : WideText} {t : Text} : toText? s = some t ↔ s = ofText t := by
  unfold toText?
  induction s generalizing t with
  | nil =>
    simp [List.mapM_nil, ofText, eq_comm]
  | cons c s ih =>
    rw [List.mapM_cons]
    cases c with
    | surrogate n =>
      have hne : CodePoint.surrogate n :: s ≠ ofText t := by cases t <;> simp
      simp [CodePoint.char?, hne]
    | char c =>
      cases t with
      | nil => cases s.mapM CodePoint.char? <;> simp [CodePoint.char?]
      | cons d t =>
        rw [ofText_cons, List.cons.injEq, CodePoint.char.injEq, ← ih]
        cases s.mapM CodePoint.char? <;> simp [CodePoint.char?]

@[simp] theorem toText?_ofText (s : Text) : toText? (ofText s) = some s :=
  toText?_eq_some_iff.mpr rfl

@[simp] theorem ofText_inj {s t : Text} : ofText s = ofText t ↔ s = t := by
  refine ⟨fun h => ?_, congrArg ofText⟩
  rw [← Option.some.injEq, ← toText?_ofText s, ← toText?_ofText t, h]

theorem isText_iff {s : WideText} : isText s = true ↔ ∃ t, s = ofText t := by
  induction s with
  | nil => exact ⟨fun _ => ⟨[], rfl⟩, fun _ => rfl⟩
  | cons c s ih =>
    cases c with
    | surrogate n =>
      refine ⟨fun h => (nomatch h), fun ⟨t, ht⟩ => ?_⟩
      cases t <;> cases ht
    | char c =>
      refine ⟨fun h => ?_, fun ⟨t, ht⟩ => ?_⟩
      · obtain ⟨t, rfl⟩ := ih.mp h
        exact ⟨c :: t, rfl⟩
      · cases t with
        | nil => cases ht
        | cons d t => exact ih.mpr ⟨t, (List.cons.inj ht).2⟩

@[simp] theorem isText_ofText (s : Text) : isText (ofText s) = true := isText_iff.mpr ⟨s, rfl⟩

theorem isText_of_subset {s t : WideText} (h : isText s = true) (hsub : t ⊆ s) : isText t = true :=
  List.all_eq_true.mpr fun c hc => List.all_eq_true.mp h c (hsub hc)

/-- A text is one run. -/
theorem onRuns_ofText (f : Text → Text) (s : Text) : onRuns f (ofText s) = ofText (f s) := by
  have hfrom : ∀ (s run : Text), onRunsFrom f run (ofText s) = ofText (f (run.reverse ++ s)) := by
    intro s
    induction s with
    | nil => exact fun run => by rw [List.append_nil]; rfl
    | cons c s ih =>
      intro run
      rw [ofText_cons, onRunsFrom, ih, List.reverse_cons, List.append_assoc, List.singleton_append]
  exact hfrom s []

/-- A text has no surrogates that could be shown by replacement characters. -/
theorem ofText_toTextLossy {s : WideText} (h : isText s = true) : ofText (toTextLossy s) = s := by
  obtain ⟨t, rfl⟩ := isText_iff.mp h
  induction t with
  | nil => rfl
  | cons c t ih => exact congrArg (.char c :: ·) (ih (isText_ofText t))

/-- A text has no surrogates to join. -/
theorem joinPairs_eq_self {s : WideText} (h : isText s = true) : joinPairs s = s := by
  induction s with
  | nil => rfl
  | cons c s ih =>
    cases c with
    | surrogate n => cases h
    | char c =>
      rw [joinPairs, ih h]
      exact fun u v t h => nomatch h

end AliasGate.WideText
