import AliasGate.Proofs.Text.Fields
import AliasGate.Route

/-!
# What paths lead to

Which targets a path can name, and which paths lead to a target.

* `Target.IsNamed`: users and images are not empty and have no slash, and ids are letters and
  digits.
* `Target.endings`: what may follow the path of a target.
* `Target.ofPath?_eq_some_iff`: a path leads to a target that a path can name if it is the path of
  that target with one of those endings, and to nothing else.
-/

namespace AliasGate.Target

variable {t : Target} {segments : List Text} {path e : Text}

/-- A segment of a path. -/
def IsSegment (s : Text) : Prop := s ≠ [] ∧ '/' ∉ s

/-- The parts of a target are such that a path can name it. -/
def IsNamed : Target → Prop
  | status => True
  | user u => IsSegment u
  | shortUrls u i => IsSegment u ∧ IsSegment i
  | shortUrl u i id => IsSegment u ∧ IsSegment i ∧ isId id = true
  | globalShortUrl id => isId id = true

/-! ## Ids -/

theorem isId_iff {id : Text} : isId id = true ↔ id ≠ [] ∧ ∀ c ∈ id, isIdChar c = true := by
  simp [isId]

theorem not_mem_of_isId {id : Text} {c : Char} (h : isId id = true) (hc : isIdChar c = false) :
    c ∉ id := by
  intro hmem
  rw [(isId_iff.mp h).2 c hmem] at hc
  cases hc

/-! ## Reading segments -/

/-- The parts of a target that the reading of segments checks. -/
def IsFilled : Target → Prop
  | status => True
  | user u => u ≠ []
  | shortUrls u i => u ≠ [] ∧ i ≠ []
  | shortUrl u i id => u ≠ [] ∧ i ≠ [] ∧ isId id = true
  | globalShortUrl id => isId id = true

/-- What else a path takes care of: no segment has a slash. -/
theorem isNamed_iff : t.IsNamed ↔ t.IsFilled ∧ ∀ s ∈ t.segments, '/' ∉ s := by
  have hid : ∀ id, isId id = true → '/' ∉ id := fun id h => not_mem_of_isId h (by decide)
  cases t with
  | status => simp [IsNamed, IsFilled, Target.segments]
  | user u => simp [IsNamed, IsFilled, Target.segments, IsSegment]
  | shortUrls u i =>
    simp only [IsNamed, IsFilled, IsSegment, Target.segments, List.forall_mem_cons]
    grind
  | shortUrl u i id =>
    have hslash := hid id
    simp only [IsNamed, IsFilled, IsSegment, Target.segments, List.forall_mem_cons]
    grind
  | globalShortUrl id =>
    have hslash := hid id
    simp only [IsNamed, IsFilled, Target.segments, List.forall_mem_cons]
    grind

theorem ofSegments?_eq_some_iff :
    ofSegments? segments = some t ↔ segments = t.segments ∧ t.IsFilled := by
  constructor
  · intro h
    unfold ofSegments? at h
    split at h
    · split at h <;> cases h
      next ha => exact ⟨by rw [ha]; rfl, trivial⟩
    · split at h
      · next hab =>
        cases h
        exact ⟨by rw [hab.1]; rfl, hab.2⟩
      · split at h <;> cases h
        next hab => exact ⟨by rw [hab.1]; rfl, hab.2⟩
    · split at h <;> cases h
      next hall =>
      obtain ⟨rfl, hu, rfl, hi, rfl⟩ := hall
      exact ⟨rfl, hu, hi⟩
    · split at h <;> cases h
      next hall =>
      obtain ⟨rfl, hu, rfl, hi, rfl, hid⟩ := hall
      exact ⟨rfl, hu, hi, hid⟩
    · cases h
  · rintro ⟨rfl, h⟩
    cases t <;> simp_all [ofSegments?, Target.segments, IsFilled]

theorem nil_not_mem_segments (h : t.IsFilled) : [] ∉ t.segments := by
  have hid : ∀ id, isId id = true → id ≠ [] := fun id h => (isId_iff.mp h).1
  cases t with
  | status => simp [Target.segments]
  | user u => simpa [Target.segments, IsFilled] using h
  | shortUrls u i => simpa [Target.segments, IsFilled] using h
  | shortUrl u i id => simpa [Target.segments] using ⟨h.1, h.2.1, hid id h.2.2⟩
  | globalShortUrl id => simpa [Target.segments] using hid id h

/-- An empty segment at the end stands for a slash there. -/
theorem ofSegmentsOrSlash?_eq_some_iff : ofSegmentsOrSlash? segments = some t ↔ t.IsFilled ∧
    (segments = t.segments ∨ t.mayEndInSlash = true ∧ segments = t.segments ++ [[]]) := by
  constructor
  · intro h
    unfold ofSegmentsOrSlash? at h
    split at h
    · next hread =>
      cases h
      obtain ⟨rfl, hfilled⟩ := ofSegments?_eq_some_iff.mp hread
      exact ⟨hfilled, .inl rfl⟩
    · split at h
      · next hbefore =>
        obtain ⟨hread, hslash⟩ := Option.filter_eq_some_iff.mp h
        obtain ⟨rfl, hfilled⟩ := ofSegments?_eq_some_iff.mp hread
        exact ⟨hfilled, .inr ⟨hslash, Text.before?_eq_some_iff.mp hbefore⟩⟩
      · cases h
  · rintro ⟨hfilled, rfl | ⟨hslash, rfl⟩⟩
    · simp [ofSegmentsOrSlash?, ofSegments?_eq_some_iff.mpr ⟨rfl, hfilled⟩]
    · have hempty : ofSegments? (t.segments ++ [[]]) = none := by
        refine Option.eq_none_iff_forall_ne_some.mpr fun t' h => ?_
        obtain ⟨hsegments, hfilled'⟩ := ofSegments?_eq_some_iff.mp h
        exact nil_not_mem_segments hfilled' (hsegments ▸ by simp)
      have hbefore : Text.before? [[]] (t.segments ++ [[]]) = some t.segments :=
        Text.before?_eq_some_iff.mpr rfl
      simp [ofSegmentsOrSlash?, hempty, hbefore, ofSegments?_eq_some_iff.mpr ⟨rfl, hfilled⟩, hslash]

/-! ## Paths without a line feed after them -/

/-- The path with the given segments. -/
def pathOf (segments : List Text) : Text := segments.flatMap fun segment => '/' :: segment

theorem pathOf_eq (segments : List Text) :
    pathOf segments = Text.joined ['/'] ([] :: segments) := by
  induction segments with
  | nil => rfl
  | cons s segments ih =>
    unfold pathOf at ih ⊢
    rw [List.flatMap_cons, ih, Text.joined_cons_cons]
    cases segments <;> simp [Text.joined]

theorem fields_pathOf (h : ∀ s ∈ segments, '/' ∉ s) :
    Text.fields '/' (pathOf segments) = [] :: segments := by
  rw [pathOf_eq, Text.fields_joined (by simpa using h) (List.cons_ne_nil _ _)]

/-- A path leads to what its segments are read as. -/
theorem ofPlainPath?_pathOf (h : ∀ s ∈ segments, '/' ∉ s) :
    ofPlainPath? (pathOf segments) = ofSegmentsOrSlash? segments := by
  rw [ofPlainPath?, fields_pathOf h]

theorem pathOf_concat_nil (segments : List Text) :
    pathOf (segments ++ [[]]) = pathOf segments ++ ['/'] := by
  simp [pathOf]

theorem ofPlainPath?_eq_some_iff : ofPlainPath? path = some t ↔
    t.IsNamed ∧ (path = t.path ∨ t.mayEndInSlash = true ∧ path = t.path ++ ['/']) := by
  constructor
  · intro h
    unfold ofPlainPath? at h
    split at h
    · next segments hfields =>
      have hpath : path = pathOf segments := by
        rw [pathOf_eq, ← hfields, Text.joined_fields]
      have hslash : ∀ s ∈ segments, '/' ∉ s := fun s hs =>
        Text.not_mem_of_mem_fields (hfields ▸ List.mem_cons_of_mem [] hs)
      obtain ⟨hfilled, rfl | ⟨hmay, rfl⟩⟩ := ofSegmentsOrSlash?_eq_some_iff.mp h
      · exact ⟨isNamed_iff.mpr ⟨hfilled, hslash⟩, .inl hpath⟩
      · refine ⟨isNamed_iff.mpr ⟨hfilled, fun s hs => hslash s (List.mem_append_left _ hs)⟩,
          .inr ⟨hmay, ?_⟩⟩
        rw [hpath, pathOf_concat_nil]
        rfl
    · cases h
  · rintro ⟨hnamed, hpath⟩
    obtain ⟨hfilled, hslash⟩ := isNamed_iff.mp hnamed
    rcases hpath with rfl | ⟨hmay, rfl⟩
    · rw [show t.path = pathOf t.segments from rfl, ofPlainPath?_pathOf hslash]
      exact ofSegmentsOrSlash?_eq_some_iff.mpr ⟨hfilled, .inl rfl⟩
    · rw [show t.path = pathOf t.segments from rfl, ← pathOf_concat_nil, ofPlainPath?_pathOf]
      · exact ofSegmentsOrSlash?_eq_some_iff.mpr ⟨hfilled, .inr ⟨hmay, rfl⟩⟩
      · simpa [or_imp, forall_and] using hslash

/-! ## All paths -/

/-- What may follow the path of a target: a slash where one is possible, and a line feed. Right
behind a user a line feed is not an ending, since it belongs to the user. -/
def endings : Target → List Text
  | status | shortUrls _ _ => [[], ['/'], ['\n'], ['/', '\n']]
  | user _ => [[], ['/'], ['/', '\n']]
  | shortUrl _ _ _ | globalShortUrl _ => [[], ['\n']]

theorem mem_endings_iff : e ∈ t.endings ↔ e = [] ∨ e = ['\n'] ∧ (∀ u, t ≠ user u) ∨
    t.mayEndInSlash = true ∧ (e = ['/'] ∨ e = ['/', '\n']) := by
  cases t <;> simp [endings, mayEndInSlash] <;> grind

theorem ofSegmentsOrSlash?_concat {s : Text} (hs : s ≠ []) :
    ofSegmentsOrSlash? (segments ++ [s]) = ofSegments? (segments ++ [s]) := by
  have hbefore : Text.before? [[]] (segments ++ [s]) = none := by
    refine Option.eq_none_iff_forall_ne_some.mpr fun init h => hs ?_
    have hlast : segments = init ∧ s = [] := by simpa using Text.before?_eq_some_iff.mp h
    exact hlast.2
  unfold ofSegmentsOrSlash?
  rw [hbefore]
  cases ofSegments? (segments ++ [s]) <;> rfl

theorem segments_ne_nil (t : Target) : t.segments ≠ [] := by
  cases t <;> exact List.cons_ne_nil _ _

/-- With an ending that has a line feed, a path has other segments than those of any target. -/
theorem ofPlainPath?_line (h : t.IsNamed) (he : e ∈ t.endings) (hline : '\n' ∈ e) :
    ofPlainPath? (t.path ++ e) = none := by
  have hslash := (isNamed_iff.mp h).2
  rcases mem_endings_iff.mp he with rfl | ⟨rfl, huser⟩ | ⟨hmay, rfl | rfl⟩
  · cases hline
  · -- the line feed becomes part of the last segment
    have hsplit := List.dropLast_concat_getLast (segments_ne_nil t)
    have hpath : t.path ++ ['\n'] = pathOf (t.segments.dropLast ++
        [t.segments.getLast (segments_ne_nil t) ++ ['\n']]) := by
      rw [show t.path = pathOf t.segments from rfl]
      conv => lhs; rw [← hsplit]
      simp [pathOf]
    rw [hpath, ofPlainPath?_pathOf, ofSegmentsOrSlash?_concat (by simp)]
    · cases t with
      | user u => exact absurd rfl (huser u)
      | _ => simp [Target.segments, ofSegments?, isId, isIdChar]
    · rw [← hsplit] at hslash
      simpa [or_imp, forall_and] using hslash
  · simp at hline
  · -- the line feed becomes a segment of its own
    have hpath : t.path ++ ['/', '\n'] = pathOf (t.segments ++ [['\n']]) := by
      simp [pathOf, path]
    rw [hpath, ofPlainPath?_pathOf, ofSegmentsOrSlash?_concat (by simp)]
    · cases t <;> simp [Target.segments, ofSegments?, isId, isIdChar]
    · simpa [or_imp, forall_and] using hslash

/-- A path leads to the targets that a path can name, by their paths with one of their endings. -/
theorem ofPath?_eq_some_iff :
    ofPath? path = some t ↔ t.IsNamed ∧ ∃ e ∈ t.endings, path = t.path ++ e := by
  constructor
  · intro h
    unfold ofPath? Text.orBeforeNewline at h
    split at h
    · next hplain =>
      cases h
      obtain ⟨hnamed, rfl | ⟨hmay, rfl⟩⟩ := ofPlainPath?_eq_some_iff.mp hplain
      · exact ⟨hnamed, [], mem_endings_iff.mpr (.inl rfl), (List.append_nil _).symm⟩
      · exact ⟨hnamed, ['/'], mem_endings_iff.mpr (.inr (.inr ⟨hmay, .inl rfl⟩)), rfl⟩
    · next hnone =>
      obtain ⟨before, hbefore, hplain⟩ := Option.bind_eq_some_iff.mp h
      obtain rfl := Text.before?_eq_some_iff.mp hbefore
      obtain ⟨hnamed, rfl | ⟨hmay, rfl⟩⟩ := ofPlainPath?_eq_some_iff.mp hplain
      · refine ⟨hnamed, ['\n'], mem_endings_iff.mpr (.inr (.inl ⟨rfl, ?_⟩)), rfl⟩
        rintro u rfl
        -- that user with the line feed would have been read first
        have hlonger : (user (u ++ ['\n'])).IsNamed := ⟨by simp, by simpa using hnamed.2⟩
        have hread := ofPlainPath?_eq_some_iff.mpr ⟨hlonger, .inl rfl⟩
        have hsame : (user (u ++ ['\n'])).path = (user u).path ++ ['\n'] := by
          simp [path, Target.segments]
        rw [hsame, hnone] at hread
        cases hread
      · refine ⟨hnamed, ['/', '\n'], mem_endings_iff.mpr (.inr (.inr ⟨hmay, .inr rfl⟩)), ?_⟩
        simp
  · rintro ⟨hnamed, e, he, rfl⟩
    have hplain : ∀ before, before = t.path ∨ t.mayEndInSlash = true ∧ before = t.path ++ ['/'] →
        ofPlainPath? before = some t := fun before h => ofPlainPath?_eq_some_iff.mpr ⟨hnamed, h⟩
    have hline : ∀ before, before = t.path ∨ t.mayEndInSlash = true ∧ before = t.path ++ ['/'] →
        ofPlainPath? (before ++ ['\n']) = none → ofPath? (before ++ ['\n']) = some t := by
      intro before h hnone
      simp [ofPath?, Text.orBeforeNewline, hnone, Text.before?_eq_some_iff.mpr rfl, hplain before h]
    rcases mem_endings_iff.mp he with rfl | ⟨rfl, -⟩ | ⟨hmay, rfl | rfl⟩
    · simp [ofPath?, Text.orBeforeNewline, hplain t.path (.inl rfl)]
    · exact hline t.path (.inl rfl) (ofPlainPath?_line hnamed he (by simp))
    · simp [ofPath?, Text.orBeforeNewline, hplain _ (.inr ⟨hmay, rfl⟩)]
    · have hnone := ofPlainPath?_line hnamed he (by simp)
      rw [List.append_cons] at hnone ⊢
      exact hline _ (.inr ⟨hmay, rfl⟩) hnone

/-- Whatever a path leads to, a path can name it. -/
theorem isNamed_of_ofPath? (h : ofPath? path = some t) : t.IsNamed :=
  (ofPath?_eq_some_iff.mp h).1

/-- The path of a target that a path can name leads to it. -/
theorem ofPath?_path (h : t.IsNamed) : ofPath? t.path = some t :=
  ofPath?_eq_some_iff.mpr ⟨h, [], mem_endings_iff.mpr (.inl rfl), (List.append_nil _).symm⟩

end AliasGate.Target
