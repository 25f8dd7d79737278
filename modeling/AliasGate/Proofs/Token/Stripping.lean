import AliasGate.Proofs.Text.Fields
import AliasGate.Token.Candidate

/-!
# Stripping arguments from a URL

The removal of arguments works on the characters of a URL and knows nothing of its parts. On a base
and fields it takes away the fields that begin with the marker, provided that the marker stands
behind no separator elsewhere.

* `Candidate.Unmarked`: the marker stands behind no separator of a text.
* `Candidate.strip_fields`: what is left of a URL, field by field.
* `Candidate.strip_last`: what is left where the last argument is the only marked one.
* `Candidate.fields_dropSeparators`: the separators stripped from the end of a query cost only
  empty fields, unless a question mark is among them.
-/

namespace AliasGate.Candidate

theorem isSeparator_iff {c : Char} : isSeparator c = true ↔ c = '?' ∨ c = '&' := by
  simp [isSeparator]

theorem isSeparator_eq_false {c : Char} (hquestion : c ≠ '?') (hamp : c ≠ '&') :
    isSeparator c = false := by
  simp [isSeparator, hquestion, hamp]

/-- The marker stands behind no separator. -/
def Unmarked (m s : Text) : Prop := ∀ c, isSeparator c = true → ¬(c :: m) <:+: s

/-- There are two separators to look behind. -/
theorem unmarked_iff {m s : Text} : Unmarked m s ↔ ¬('?' :: m) <:+: s ∧ ¬('&' :: m) <:+: s := by
  constructor
  · intro h
    exact ⟨h '?' rfl, h '&' rfl⟩
  · rintro ⟨hquestion, hamp⟩ c hc
    rcases isSeparator_iff.mp hc with rfl | rfl
    · exact hquestion
    · exact hamp

theorem isSeparator_last {s : Text} {d : Char} (hlast : s.getLast? = some d)
    (hd : isSeparator d = false) : ∀ t c, s = t ++ [c] → isSeparator c = false := by
  rintro t c rfl
  rw [List.getLast?_concat] at hlast
  cases hlast
  exact hd

/-- A text by which arguments can be told: not empty and without separators. -/
def Marker (m : Text) : Prop := m ≠ [] ∧ ∀ c ∈ m, isSeparator c = false

variable {m s t f : Text}

theorem Unmarked.mono (h : Unmarked m t) (hs : s <:+: t) : Unmarked m s :=
  fun c hc hm => h c hc (hm.trans hs)

theorem Unmarked.not_begins {c : Char} (h : Unmarked m (c :: s)) (hc : isSeparator c = true) :
    ¬m <+: s := by
  rintro ⟨t, rfl⟩
  exact h c hc ⟨[], t, rfl⟩

theorem Unmarked.of_plain (h : ∀ c ∈ s, isSeparator c = false) : Unmarked m s := by
  intro c hc hin
  rw [h c (hin.subset List.mem_cons_self)] at hc
  cases hc

theorem Unmarked.cons {c : Char} (h : Unmarked m s) (hc : isSeparator c = true → ¬m <+: s) :
    Unmarked m (c :: s) := by
  intro d hd hin
  rcases List.infix_cons_iff.mp hin with hbegins | hin
  · obtain ⟨rfl, hmarker⟩ := List.cons_prefix_cons.mp hbegins
    exact hc hd hmarker
  · exact h d hd hin

theorem Unmarked.append_left (hs : ∀ c ∈ s, isSeparator c = false) (h : Unmarked m t) :
    Unmarked m (s ++ t) := by
  induction s with
  | nil => exact h
  | cons a s ih =>
    refine (ih fun b hb => hs b (List.mem_cons_of_mem a hb)).cons fun ha => ?_
    rw [hs a List.mem_cons_self] at ha
    cases ha

/-- A marker that begins a text ends before the next separator. -/
theorem Marker.prefix_of_append {c : Char} (hm : Marker m) (hc : isSeparator c = true)
    (h : m <+: s ++ c :: t) : m <+: s := by
  have hs : s ++ [c] <+: s ++ c :: t := ⟨t, by rw [List.append_assoc, List.singleton_append]⟩
  have hnot : c ∉ m := fun hmem => by
    rw [hm.2 c hmem] at hc
    cases hc
  rcases List.prefix_or_prefix_of_prefix h hs with h | h
  · rcases List.prefix_concat_iff.mp h with rfl | h
    · exact absurd (List.mem_append_right s List.mem_cons_self) hnot
    · exact h
  · exact absurd (h.subset (List.mem_append_right s List.mem_cons_self)) hnot

/-! ## Texts that keep everything -/

theorem removeFrom_outside {o : Bool} {c : Char} (h : o = true → ¬m <+: c :: s) :
    removeFrom m (.outside o) (c :: s) = c :: removeFrom m (.outside (isSeparator c)) s := by
  have hcond : ¬(o && m.isPrefixOf (c :: s)) = true := by
    rw [Bool.and_eq_true, List.isPrefixOf_iff_prefix]
    exact fun hp => h hp.1 hp.2
  rw [removeFrom, if_neg hcond]

/-- An unmarked text is kept up to a separator after it. -/
theorem removeFrom_append {o : Bool} {c : Char} (hm : Marker m) (hs : Unmarked m s)
    (ho : o = true → ¬m <+: s) (hc : isSeparator c = true) (t : Text) :
    removeFrom m (.outside o) (s ++ c :: t) = s ++ c :: removeFrom m (.outside true) t := by
  induction s generalizing o with
  | nil =>
    have hnot : ¬m <+: [] ++ c :: t := fun h => hm.1 (List.prefix_nil.mp (hm.prefix_of_append hc h))
    rw [List.nil_append, removeFrom_outside fun _ => hnot, hc, List.nil_append]
  | cons a s ih =>
    have hnot : o = true → ¬m <+: a :: (s ++ c :: t) := fun h hp =>
      ho h (hm.prefix_of_append (s := a :: s) hc hp)
    rw [List.cons_append, removeFrom_outside hnot,
      ih (hs.mono ⟨[a], [], by simp⟩) (fun ha => hs.not_begins ha), List.cons_append]

/-- An unmarked text is kept at the end. -/
theorem removeFrom_eq_self {o : Bool} (hs : Unmarked m s) (ho : o = true → ¬m <+: s) :
    removeFrom m (.outside o) s = s := by
  induction s generalizing o with
  | nil => rw [removeFrom]
  | cons a s ih =>
    rw [removeFrom_outside ho, ih (hs.mono ⟨[a], [], by simp⟩) fun ha => hs.not_begins ha]

/-- A beginning without separators is kept, and a marker cannot follow at once. -/
theorem removeFrom_plain {o : Bool} (hs : ∀ c ∈ s, isSeparator c = false) (hne : s ≠ [])
    (ho : o = true → ¬m <+: s ++ t) :
    removeFrom m (.outside o) (s ++ t) = s ++ removeFrom m (.outside false) t := by
  induction s generalizing o with
  | nil => exact absurd rfl hne
  | cons c s ih =>
    have hnot : o = true → ¬m <+: c :: (s ++ t) := ho
    rw [List.cons_append, removeFrom_outside hnot, hs c List.mem_cons_self]
    cases s with
    | nil => rfl
    | cons d s =>
      rw [ih (fun a ha => hs a (List.mem_cons_of_mem c ha)) (List.cons_ne_nil d s)
        (fun h => by cases h)]
      rfl

/-! ## Fields that are taken away -/

theorem removeFrom_inside (x y : Text) :
    removeFrom m (.inside x.length) (x ++ y) = removeFrom m (.inside 0) y := by
  induction x with
  | nil => rfl
  | cons c x ih => exact ih

theorem removeFrom_value (h : '&' ∉ s) (t : Text) :
    removeFrom m (.inside 0) (s ++ '&' :: t) = removeFrom m (.outside true) t := by
  induction s with
  | nil => simp [removeFrom]
  | cons c s ih =>
    have hc : c ≠ '&' := fun hc => h (hc ▸ List.mem_cons_self)
    rw [List.cons_append, removeFrom, if_neg hc, ih fun hs => h (List.mem_cons_of_mem c hs)]

theorem removeFrom_last_value (h : '&' ∉ s) : removeFrom m (.inside 0) s = [] := by
  induction s with
  | nil => rw [removeFrom]
  | cons c s ih =>
    have hc : c ≠ '&' := fun hc => h (hc ▸ List.mem_cons_self)
    rw [removeFrom, if_neg hc, ih fun hs => h (List.mem_cons_of_mem c hs)]

theorem removeFrom_begins {c : Char} (h : m <+: c :: s) :
    removeFrom m (.outside true) (c :: s) = removeFrom m (.inside (m.length - 1)) s := by
  have hcond : (true && m.isPrefixOf (c :: s)) = true := by
    rw [Bool.true_and, List.isPrefixOf_iff_prefix]
    exact h
  rw [removeFrom, if_pos hcond]

theorem removeFrom_marker (hm : Marker m) (t : Text) :
    removeFrom m (.outside true) (m ++ t) = removeFrom m (.inside 0) t := by
  cases m with
  | nil => exact absurd rfl hm.1
  | cons c m =>
    have hbegins : c :: m <+: c :: (m ++ t) := List.prefix_append (c :: m) t
    rw [List.cons_append, removeFrom_begins hbegins]
    exact removeFrom_inside m t

/-! ## Field by field -/

/-- A field that the removal takes as a whole or leaves as a whole. -/
def Whole (m f : Text) : Prop := '&' ∉ f ∧ (¬m <+: f → Unmarked m f)

theorem Whole.of_plain (h : ∀ c ∈ f, isSeparator c = false) : Whole m f :=
  ⟨fun hamp => (by cases h _ hamp), fun _ => .of_plain h⟩

/-- Without ampersands only question marks separate. -/
theorem Whole.of_question (hamp : '&' ∉ f) (h : ¬('?' :: m) <:+: f) : Whole m f := by
  refine ⟨hamp, fun _ c hc hin => ?_⟩
  rcases isSeparator_iff.mp hc with rfl | rfl
  · exact h hin
  · exact hamp (hin.subset List.mem_cons_self)

theorem removeFrom_field (hm : Marker m) (hf : Whole m f) (t : Text) :
    removeFrom m (.outside true) (f ++ '&' :: t) =
      if m <+: f then removeFrom m (.outside true) t
      else f ++ '&' :: removeFrom m (.outside true) t := by
  split
  next h =>
    obtain ⟨v, rfl⟩ := h
    rw [List.append_assoc, removeFrom_marker hm,
      removeFrom_value fun hv => hf.1 (List.mem_append_right m hv)]
  next h => exact removeFrom_append hm (hf.2 h) (fun _ => h) rfl t

theorem removeFrom_last_field (hm : Marker m) (hf : Whole m f) :
    removeFrom m (.outside true) f = if m <+: f then [] else f := by
  split
  next h =>
    obtain ⟨v, rfl⟩ := h
    rw [removeFrom_marker hm, removeFrom_last_value fun hv => hf.1 (List.mem_append_right m hv)]
  next h => exact removeFrom_eq_self (hf.2 h) fun _ => h

/-- The text without its separators at the end. -/
abbrev dropSeparators (s : Text) : Text := Text.dropEndWhile isSeparator s

theorem dropSeparators_concat {c : Char} (hc : isSeparator c = true) (s : Text) :
    dropSeparators (s ++ [c]) = dropSeparators s := by
  rw [dropSeparators, Text.dropEndWhile_concat, if_pos hc]

/-- The fields that do not begin with the marker. -/
def kept (m : Text) (fs : List Text) : List Text := fs.filter fun f => ¬m <+: f

theorem kept_cons (m f : Text) (fs : List Text) :
    kept m (f :: fs) = if m <+: f then kept m fs else f :: kept m fs := by
  by_cases h : m <+: f <;> simp [kept, h]

theorem kept_append (m : Text) (fs gs : List Text) :
    kept m (fs ++ gs) = kept m fs ++ kept m gs := List.filter_append fs gs

theorem mem_kept {fs : List Text} : f ∈ kept m fs ↔ f ∈ fs ∧ ¬m <+: f := by
  simp [kept]

theorem kept_eq_self {fs : List Text} (h : ∀ f ∈ fs, ¬m <+: f) : kept m fs = fs :=
  List.filter_eq_self.mpr fun f hf => decide_eq_true (h f hf)

/-- Behind a separator the fields that begin with the marker are lost. The ampersand after a field
goes with it, so that the one before the last field may be left at the end. -/
theorem removeFrom_fields (hm : Marker m) {fs : List Text} (hfs : ∀ f ∈ fs, Whole m f) (x : Text)
    {c : Char} (hc : isSeparator c = true) :
    dropSeparators (x ++ c :: removeFrom m (.outside true) (Text.joined ['&'] fs)) =
      dropSeparators (x ++ c :: Text.joined ['&'] (kept m fs)) := by
  have hsingle : ∀ g : Text, Text.joined ['&'] [g] = g := fun g => List.intercalate_singleton
  induction fs generalizing x c with
  | nil =>
    rw [show Text.joined ['&'] ([] : List Text) = [] from rfl, removeFrom]
    rfl
  | cons f fs ih =>
    have hf := hfs f List.mem_cons_self
    have hrest := fun g hg => hfs g (List.mem_cons_of_mem f hg)
    rw [kept_cons]
    cases fs with
    | nil =>
      rw [hsingle, removeFrom_last_field hm hf]
      split
      · rfl
      · rw [show kept m [] = [] from rfl, hsingle]
    | cons g fs =>
      rw [Text.joined_cons_cons, List.singleton_append, removeFrom_field hm hf]
      split
      · exact ih hrest x hc
      · have hkept := ih hrest (x ++ c :: f) (c := '&') rfl
        rw [List.append_assoc, List.cons_append] at hkept
        rw [hkept]
        cases kept m (g :: fs) with
        | nil =>
          have hlast := dropSeparators_concat (c := '&') rfl (x ++ c :: f)
          rw [hsingle]
          exact hlast
        | cons h hs =>
          rw [Text.joined_cons_cons, List.singleton_append, List.append_assoc, List.cons_append]

/-- Of a field that the removal neither takes nor leaves as a whole, the beginning is left, up to a
separator at least. -/
theorem exists_of_not_whole (hm : Marker m) {p : Text → Prop} {fs : List Text}
    (hfs : ∀ f ∈ fs, Whole m f ∨ '&' ∉ f ∧ ¬m <+: f ∧
      ∃ x y, f = x ++ y ∧ x ≠ [] ∧ (∀ c ∈ x, isSeparator c = false) ∧ p x)
    (h : ∃ f ∈ fs, ¬Whole m f) :
    ∃ u x v, removeFrom m (.outside true) (Text.joined ['&'] fs) = u ++ (x ++ v) ∧ p x ∧
      (u = [] ∨ ∃ w, u = w ++ ['&']) := by
  induction fs with
  | nil =>
    obtain ⟨f, hf, -⟩ := h
    cases hf
  | cons f fs ih =>
    by_cases hf : Whole m f
    · have hrest : ∃ g ∈ fs, ¬Whole m g := by
        obtain ⟨g, hg, hwhole⟩ := h
        rcases List.mem_cons.mp hg with rfl | hg
        · exact absurd hf hwhole
        · exact ⟨g, hg, hwhole⟩
      obtain ⟨u, x, v, hremove, hx, hu⟩ := ih (fun g hg => hfs g (List.mem_cons_of_mem f hg)) hrest
      have hcons : Text.joined ['&'] (f :: fs) = f ++ '&' :: Text.joined ['&'] fs := by
        obtain ⟨g, hg, -⟩ := hrest
        cases fs with
        | nil => cases hg
        | cons g fs => exact Text.joined_cons_cons _ _ _ _
      rw [hcons, removeFrom_field hm hf, hremove]
      split
      · exact ⟨u, x, v, rfl, hx, hu⟩
      · refine ⟨f ++ '&' :: u, x, v, by simp, hx, .inr ?_⟩
        rcases hu with rfl | ⟨w, rfl⟩
        · exact ⟨f, rfl⟩
        · exact ⟨f ++ '&' :: w, by simp⟩
    · obtain ⟨-, hbegins, x, y, rfl, hne, hx, hp⟩ :=
        (hfs f List.mem_cons_self).resolve_left hf
      have hjoined : ∃ z, Text.joined ['&'] ((x ++ y) :: fs) = x ++ (y ++ z) ∧
          ¬m <+: x ++ (y ++ z) := by
        cases fs with
        | nil =>
          refine ⟨[], ?_, ?_⟩
          · rw [List.append_nil]
            exact List.intercalate_singleton
          · rwa [List.append_nil]
        | cons g fs =>
          refine ⟨'&' :: Text.joined ['&'] (g :: fs), ?_, fun hz => hbegins ?_⟩
          · rw [Text.joined_cons_cons, List.append_assoc, List.singleton_append]
          · rw [← List.append_assoc] at hz
            exact hm.prefix_of_append rfl hz
      obtain ⟨z, hz, hmarker⟩ := hjoined
      rw [hz, removeFrom_plain hx hne fun _ => hmarker]
      exact ⟨[], x, _, rfl, hp, .inl rfl⟩

/-- Stripping, field by field. -/
theorem strip_fields {key base : Text} {fs : List Text} (hm : Marker (key ++ ['=']))
    (hbase : Unmarked (key ++ ['=']) base) (hfs : ∀ f ∈ fs, Whole (key ++ ['=']) f) :
    strip key (base ++ '?' :: Text.joined ['&'] fs) =
      dropSeparators (base ++ '?' :: Text.joined ['&'] (kept (key ++ ['=']) fs)) := by
  unfold strip
  rw [removeFrom_append hm hbase (fun h => by cases h) rfl]
  exact removeFrom_fields hm hfs base rfl

/-- Of a text without marks, stripping leaves everything but the marked argument at its end. -/
theorem strip_last {key s token : Text} (hm : Marker (key ++ ['=']))
    (hs : Unmarked (key ++ ['=']) s) (hend : ∀ t c, s = t ++ [c] → isSeparator c = false)
    (htoken : '&' ∉ token) : strip key (s ++ '&' :: (key ++ '=' :: token)) = s := by
  have hsplit : key ++ '=' :: token = (key ++ ['=']) ++ token := by simp
  unfold strip
  rw [removeFrom_append hm hs (fun h => by cases h) rfl, hsplit, removeFrom_marker hm,
    removeFrom_last_value htoken]
  exact (dropSeparators_concat rfl s).trans (Text.dropEndWhile_eq_self hend)

end AliasGate.Candidate
