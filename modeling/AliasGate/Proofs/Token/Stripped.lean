import AliasGate.Proofs.Token.Candidates

/-!
# Stripped texts

Taking out an argument brings together the text before it and the text after it. No argument with
the marker comes about by that: it is taken out from behind a separator, and the text after it
either begins with the marker, so that it goes as well, or does not. Hence stripping has a normal
form, on whatever text it works.

* `Candidate.removeFrom_cons`: what one step of the removal can do.
* `Candidate.unmarked_removeFrom`: the removal leaves the marker behind no separator.
* `Candidate.Stripped`: the texts that have nothing to strip, which stripping leaves alone.
* `Candidate.strip_normal_form`: stripping on all texts, and argument by argument on those that have
  the form of a URL.
-/

namespace AliasGate.Candidate

variable {m s x : Text} {p : Position}

/-! ## The removal, step by step -/

/-- What is kept next stands behind a separator, perhaps with arguments removed in between. -/
def Position.Opened : Position → Prop
  | .outside opened => opened = true
  | .inside _ => True

/-- A character is lost, and what follows it stands behind a separator, or it is kept, where no
argument with the marker begins. -/
theorem removeFrom_cons (m : Text) (p : Position) (c : Char) (s : Text) :
    (∃ q : Position, q.Opened ∧ removeFrom m p (c :: s) = removeFrom m q s) ∨
      ∃ o, p = .outside o ∧ (o = true → ¬m <+: c :: s) ∧
        removeFrom m p (c :: s) = c :: removeFrom m (.outside (isSeparator c)) s := by
  cases p with
  | outside o =>
    by_cases h : o = true ∧ m <+: c :: s
    · obtain ⟨rfl, hbegins⟩ := h
      exact .inl ⟨.inside (m.length - 1), trivial, removeFrom_begins hbegins⟩
    · have hnot : o = true → ¬m <+: c :: s := fun ho hm => h ⟨ho, hm⟩
      exact .inr ⟨o, rfl, hnot, removeFrom_outside hnot⟩
  | inside ahead =>
    cases ahead with
    | zero =>
      rw [removeFrom]
      split
      · exact .inl ⟨.outside true, rfl, rfl⟩
      · exact .inl ⟨.inside 0, trivial, rfl⟩
    | succ ahead => exact .inl ⟨.inside ahead, trivial, rfl⟩

/-- A beginning without separators is as it was before the removal. -/
theorem prefix_of_prefix_removeFrom {o : Bool} (hx : ∀ c ∈ x, isSeparator c = false)
    (ho : o = true → ¬m <+: s) (h : x <+: removeFrom m (.outside o) s) : x <+: s := by
  induction x generalizing s o with
  | nil => exact List.nil_prefix
  | cons d x ih =>
    cases s with
    | nil => rwa [removeFrom] at h
    | cons c s =>
      rw [removeFrom_outside ho] at h
      obtain ⟨rfl, hrest⟩ := List.cons_prefix_cons.mp h
      -- an argument is taken out behind a separator only, and `d` is none
      rw [hx d List.mem_cons_self] at hrest
      exact List.cons_prefix_cons.mpr
        ⟨rfl, ih (fun c hc => hx c (List.mem_cons_of_mem d hc)) (fun h => by cases h) hrest⟩

/-- Behind a separator, what is left does not begin with the marker. -/
theorem not_begins_removeFrom (hm : Marker m) (hp : p.Opened) : ¬m <+: removeFrom m p s := by
  induction s generalizing p with
  | nil =>
    rw [removeFrom]
    exact fun h => hm.1 (List.prefix_nil.mp h)
  | cons c s ih =>
    rcases removeFrom_cons m p c s with ⟨q, hq, hlost⟩ | ⟨o, rfl, hnot, -⟩
    · rw [hlost]
      exact ih hq
    · exact fun h => hnot hp (prefix_of_prefix_removeFrom hm.2 hnot h)

/-- **Nothing new is marked.** Of any text, from any position, what is left has the marker behind no
separator, whatever the removal brings together. -/
theorem unmarked_removeFrom (hm : Marker m) : Unmarked m (removeFrom m p s) := by
  induction s generalizing p with
  | nil =>
    rw [removeFrom]
    exact .of_plain fun c hc => by cases hc
  | cons c s ih =>
    rcases removeFrom_cons m p c s with ⟨q, -, hlost⟩ | ⟨o, -, -, hkept⟩
    · rw [hlost]
      exact ih
    · rw [hkept]
      exact ih.cons fun hc => not_begins_removeFrom hm hc

/-! ## Stripping -/

/-- A text that has nothing to strip: the key with its equals sign stands behind no separator, and
there is no separator at the end. -/
structure Stripped (key s : Text) : Prop where
  question : ¬('?' :: (key ++ ['='])) <:+: s
  ampersand : ¬('&' :: (key ++ ['='])) <:+: s
  question_last : ¬['?'] <:+ s
  ampersand_last : ¬['&'] <:+ s

variable {key : Text}

theorem stripped_iff : Stripped key s ↔
    Unmarked (key ++ ['=']) s ∧ ∀ t c, s = t ++ [c] → isSeparator c = false := by
  constructor
  · intro h
    refine ⟨unmarked_iff.mpr ⟨h.question, h.ampersand⟩, ?_⟩
    rintro t c rfl
    refine isSeparator_eq_false ?_ ?_
    · rintro rfl
      exact h.question_last (List.suffix_append t _)
    · rintro rfl
      exact h.ampersand_last (List.suffix_append t _)
  · rintro ⟨hunmarked, hend⟩
    obtain ⟨hquestion, hamp⟩ := unmarked_iff.mp hunmarked
    refine ⟨hquestion, hamp, ?_, ?_⟩
    · rintro ⟨t, rfl⟩
      cases hend t '?' rfl
    · rintro ⟨t, rfl⟩
      cases hend t '&' rfl

theorem stripped_strip (hm : Marker (key ++ ['='])) (s : Text) : Stripped key (strip key s) := by
  refine stripped_iff.mpr ⟨?_, fun t c h => Text.dropEndWhile_last h⟩
  exact (unmarked_removeFrom hm).mono (Text.dropEndWhile_prefix_self _ _).isInfix

theorem strip_eq_self (h : Stripped key s) : strip key s = s := by
  obtain ⟨hunmarked, hend⟩ := stripped_iff.mp h
  unfold strip
  rw [removeFrom_eq_self hunmarked (fun h => by cases h)]
  exact Text.dropEndWhile_eq_self hend

/-- **Stripping.** `strip` gives `Stripped` texts and keeps these as they are. Of separated
arguments it keeps those that do not begin with the key (`kept`), but for the separators at the end.
-/
theorem strip_normal_form {k : Text} (hplain : ∀ c ∈ k, Percent.isUnreserved c = true) :
    (∀ u, Stripped k (strip k u) ∧ strip k (strip k u) = strip k u ∧
      (Stripped k u → strip k u = u)) ∧
    ∀ base args, '?' ∉ base ∧ '&' ∉ base → (∀ arg ∈ args, '?' ∉ arg ∧ '&' ∉ arg) →
      strip k (base ++ '?' :: Text.joined ['&'] args) =
        dropSeparators (base ++ '?' :: Text.joined ['&'] (kept (k ++ ['=']) args)) := by
  have hm := marker_of_unreserved hplain
  have hsep : ∀ {t : Text}, '?' ∉ t ∧ '&' ∉ t → ∀ c ∈ t, isSeparator c = false :=
    fun ⟨hquestion, hamp⟩ c hc =>
      isSeparator_eq_false (fun h => hquestion (h ▸ hc)) (fun h => hamp (h ▸ hc))
  refine ⟨fun u => ?_, fun base args hbase hargs => ?_⟩
  · have hstripped := stripped_strip hm u
    exact ⟨hstripped, strip_eq_self hstripped, strip_eq_self⟩
  · exact strip_fields hm (.of_plain (hsep hbase)) fun arg harg => .of_plain (hsep (hargs arg harg))

/-- Tokens side by side and at both ends, an empty argument among them, and a name that ends like the
key. What is left of them stays. -/
theorem strip_normal_form_repeated :
    strip "t".toList "http://imbo/users/a?t=x&t=y&&at=1&t&t=".toList =
      "http://imbo/users/a?&at=1&t".toList ∧
    strip "t".toList "http://imbo/users/a?&at=1&t".toList =
      "http://imbo/users/a?&at=1&t".toList := by
  obtain ⟨hall, hurl⟩ :=
    strip_normal_form (k := "t".toList) (Text.forall_mem_of_all (by decide))
  constructor
  · refine (hurl "http://imbo/users/a".toList ["t=x".toList, "t=y".toList, [], "at=1".toList,
      "t".toList, "t=".toList] (by decide) (by decide)).trans (by decide)
  · exact (hall _).2.2
      ⟨by decide +kernel, by decide +kernel, by decide +kernel, by decide +kernel⟩

end AliasGate.Candidate
