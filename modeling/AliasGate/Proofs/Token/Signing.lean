import AliasGate.Token.Signer

/-!
# Signers from settings

Settings make signers of three shapes (one default, one on its own, a choice among several), and
all of them sign alike.

* `Signer.configured_shape`: which of these it is.
* `Signer.configured_sign`: under each of its own argument keys a configured signer makes the keyed
  digest.
* `Signer.Total`: a signer that never fails there; `Signer.configured_total` says it of these.
-/

namespace AliasGate.Signer

section
variable {α β ε : Type}

/-- If `g` says what each success of `f` is, it says what success on a whole list is. -/
theorem mapM_ok {f : α → Except ε β} {g : α → β} (hf : ∀ a b, f a = .ok b → b = g a) {l : List α}
    {r : List β} (h : l.mapM f = .ok r) : r = l.map g := by
  induction l generalizing r with
  | nil =>
    cases h
    rfl
  | cons a l ih =>
    rw [List.mapM_cons] at h
    rcases ha : f a with e | b
    · rw [ha] at h
      cases h
    rcases hl : l.mapM f with e | bs
    · rw [ha, hl] at h
      cases h
    rw [ha, hl] at h
    cases h
    rw [hf a b ha, ih hl, List.map_cons]

/-- A list is refused for its first element that is. -/
theorem mapM_eq_error_iff {f : α → Except ε β} {l : List α} {error : ε} :
    l.mapM f = .error error ↔ ∃ before a after, l = before ++ a :: after ∧
      (∀ b ∈ before, ∃ r, f b = .ok r) ∧ f a = .error error := by
  induction l with
  | nil =>
    refine iff_of_false nofun ?_
    rintro ⟨before, a, after, h, -⟩
    exact List.append_ne_nil_of_right_ne_nil before (List.cons_ne_nil a after) h.symm
  | cons a l ih =>
    rw [List.mapM_cons]
    cases ha : f a with
    | error e =>
      constructor
      · intro h
        cases h
        exact ⟨[], a, l, rfl, fun _ hb => absurd hb List.not_mem_nil, ha⟩
      · rintro ⟨before, a', after, hl, hbefore, ha'⟩
        cases before with
        | nil =>
          obtain ⟨rfl, -⟩ := List.cons.inj hl
          exact congrArg Except.error (Except.error.inj (ha.symm.trans ha'))
        | cons b before =>
          obtain ⟨rfl, -⟩ := List.cons.inj hl
          obtain ⟨r, hr⟩ := hbefore a List.mem_cons_self
          cases ha.symm.trans hr
    | ok r =>
      have hrest : (do let bs ← l.mapM f; pure (r :: bs)) = .error error ↔
          l.mapM f = .error error := by
        cases l.mapM f <;> simp [bind, Except.bind, pure, Except.pure]
      refine hrest.trans (ih.trans ⟨?_, ?_⟩)
      · rintro ⟨before, a', after, rfl, hbefore, ha'⟩
        exact ⟨a :: before, a', after, rfl, List.forall_mem_cons.mpr ⟨⟨r, ha⟩, hbefore⟩, ha'⟩
      · rintro ⟨before, a', after, hl, hbefore, ha'⟩
        cases before with
        | nil =>
          obtain ⟨rfl, -⟩ := List.cons.inj hl
          cases ha.symm.trans ha'
        | cons b before =>
          obtain ⟨-, rfl⟩ := List.cons.inj hl
          exact ⟨before, a', after, rfl, (List.forall_mem_cons.mp hbefore).2, ha'⟩

theorem mapM_map_ok {f : β → Except ε α} {g : α → β} (hf : ∀ a, f (g a) = .ok a) (l : List α) :
    (l.map g).mapM f = .ok l := by
  induction l with
  | nil => rfl
  | cons a l ih =>
    rw [List.map_cons, List.mapM_cons, ih, hf]
    rfl

end

theorem ofEntry_ok (e : Text × Text) (s : Text × Signer) (h : ofEntry e = .ok s) :
    s = (e.1, hmac [e.1]) := by
  unfold ofEntry at h
  split at h
  · cases h
    rfl
  · cases h

/-- A choice among signers that are all there is made. -/
theorem choice_of_signers {signers : List (Text × Signer)} (h : signers ≠ []) :
    choice (signers.map fun e => (e.1, some e.2)) =
      .ok ⟨.choice, signers.map (·.1), signBy signers⟩ := by
  obtain ⟨e, l, rfl⟩ := List.exists_cons_of_ne_nil h
  show (List.mapM _ _ >>= _) = _
  rw [mapM_map_ok]
  · rfl
  · exact fun _ => rfl

/-- A choice among keyed digests signs as they do. -/
theorem signBy_hmac {entries : Keyed Text Text} {key : Text} (h : key ∈ entries.map (·.1))
    (data privateKey : Text) :
    signBy (entries.map fun e => (e.1, hmac [e.1])) key data privateKey =
      .ok (Hmac.signature privateKey data) := by
  have hget : ∃ ks, Keyed.get? (entries.map fun e => (e.1, hmac [e.1])) key = some (hmac ks) := by
    induction entries with
    | nil => cases h
    | cons e entries ih =>
      by_cases he : e.1 = key
      · exact ⟨[e.1], by simp [Keyed.get?, he]⟩
      · obtain ⟨ks, hks⟩ := ih (by simpa [Ne.symm he] using h)
        exact ⟨ks, by simpa [Keyed.get?, he] using hks⟩
  obtain ⟨ks, hks⟩ := hget
  unfold signBy
  rw [hks]
  rfl

/-- What signer settings make, from their entries and the default argument keys. -/
inductive Shape (entries : Keyed Text Text) (keys : List Text) : Signer → Prop
  | default (h : entries = []) : Shape entries keys (hmac keys)
  | single {e : Text × Text} (h : entries = [e]) : Shape entries keys (hmac [e.1])
  | several (h : entries ≠ []) : Shape entries keys
      ⟨.choice, entries.map (·.1), signBy (entries.map fun e => (e.1, hmac [e.1]))⟩

theorem configured_shape {entries : Keyed Text Text} {keys : List Text} {s : Signer}
    (h : configured entries keys = .ok s) : Shape entries keys s := by
  unfold configured at h
  split at h
  · cases h
    exact .default rfl
  next hne =>
    rcases hm : entries.mapM ofEntry with f | signers
    · rw [hm] at h
      cases h
    · rw [hm] at h
      obtain rfl := mapM_ok ofEntry_ok hm
      simp only [bind, Except.bind] at h
      split at h
      next k signer hmap =>
        cases h
        obtain ⟨e, rfl, he⟩ := List.map_eq_singleton_iff.mp hmap
        cases he
        exact .single rfl
      next =>
        have hnonempty : (entries.map fun e => (e.1, hmac [e.1])) ≠ [] :=
          fun h0 => hne (List.map_eq_nil_iff.mp h0)
        rw [choice_of_signers hnonempty, List.map_map] at h
        cases h
        exact .several hne

/-- A configured signer makes the keyed digest under each of its argument keys. -/
theorem configured_sign {entries : Keyed Text Text} {keys : List Text} {s : Signer}
    (h : configured entries keys = .ok s) {key : Text} (hkey : key ∈ s.keys)
    (data privateKey : Text) :
    s.sign key data privateKey = .ok (Hmac.signature privateKey data) := by
  cases configured_shape h with
  | default | single => rfl
  | several => exact signBy_hmac hkey data privateKey

/-- Under each of its own argument keys the signer makes a signature, whatever the data. -/
def Total (s : Signer) : Prop :=
  ∀ key ∈ s.keys, ∀ data privateKey, ∃ t, s.sign key data privateKey = .ok t

theorem configured_total {entries : Keyed Text Text} {keys : List Text} {s : Signer}
    (h : configured entries keys = .ok s) : s.Total :=
  fun _ hkey data privateKey => ⟨_, configured_sign h hkey data privateKey⟩

end AliasGate.Signer
