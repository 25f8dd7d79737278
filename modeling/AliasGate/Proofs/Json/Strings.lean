import AliasGate.Json.Reader
import AliasGate.Json.Writer
import AliasGate.Proofs.Text.CodePoint

/-!
# Written strings are read back

* `pieces_escape`: a code point, however it is escaped, is read as one piece that stands for it.
* `string?_writeString`: a string between quotes is read as itself.
-/

namespace AliasGate

/-- A character has its number. -/
theorem CodePoint.ofNat?_toNat (c : Char) : ofNat? c.toNat = some (.char c) := by
  have hvalid : c.toNat.isValidChar := c.valid
  rw [ofNat?, dif_pos hvalid]
  rfl

namespace Json

open WideText (ofText)

/-- The piece stands for the code point, whatever comes after it. -/
def Piece.Shows (p : Piece) (c : CodePoint) : Prop := ∀ ps, assemble (p :: ps) = c :: assemble ps

theorem shows_point (c : CodePoint) : (Piece.point c).Shows c := fun _ => rfl

/-- An escaped unit that is no high surrogate stands for its character. -/
theorem shows_unit {c : Char} (hc : c.toNat < 0xD800) : (Piece.unit c.toNat).Shows (.char c) := by
  have hlone : lone c.toNat = .char c := by
    rw [lone, CodePoint.ofNat?_toNat]
    rfl
  intro ps
  rcases ps with _ | ⟨p | v, ps⟩
  · exact congrArg (· :: []) hlone
  · exact congrArg (· :: assemble (.point p :: ps)) hlone
  · have hlow : ¬(0xD800 ≤ c.toNat ∧ c.toNat < 0xDC00 ∧ 0xDC00 ≤ v ∧ v < 0xE000) := by omega
    rw [assemble, if_neg hlow, hlone]

/-- Control characters have two zeros in front of their two digits. -/
theorem hex_control : ∀ n < 0x20, Text.hex 4 n =
    ['0', '0', Nat.digitChar (n / 16), Nat.digitChar (n % 16)] ∧
    unit? (.char '0') (.char '0') (.char (Nat.digitChar (n / 16)))
      (.char (Nat.digitChar (n % 16))) = some n := by
  decide

theorem pieces_escapeChar (c : Char) : ∃ p : Piece, p.Shows (.char c) ∧
    ∀ s, pieces (ofText (escapeChar c) ++ s) = (pieces s).map fun (ps, r) => (p :: ps, r) := by
  unfold escapeChar
  by_cases hmark : c = '"' ∨ c = '\\'
  · rw [if_pos hmark]
    refine ⟨.point (.char c), shows_point _, fun s => ?_⟩
    rcases hmark with rfl | rfl <;> rfl
  rw [if_neg hmark]
  by_cases hcontrol : c.toNat < 0x20
  · by_cases hletter : c ∈ [Char.ofNat 0x08, Char.ofNat 0x0C, '\n', '\r', '\t']
    · refine ⟨.point (.char c), shows_point _, fun s => ?_⟩
      simp only [List.mem_cons, List.not_mem_nil, or_false] at hletter
      rcases hletter with rfl | rfl | rfl | rfl | rfl <;> rfl
    · have hback : ¬c.toNat = 0x08 := fun h => hletter (by rw [← c.ofNat_toNat, h]; simp)
      have hfeed : ¬c.toNat = 0x0C := fun h => hletter (by rw [← c.ofNat_toNat, h]; simp)
      simp only [List.mem_cons, List.not_mem_nil, or_false, not_or] at hletter
      obtain ⟨hhex, hunit⟩ := hex_control c.toNat hcontrol
      rw [if_neg hback, if_neg hfeed, if_neg hletter.2.2.1, if_neg hletter.2.2.2.1,
        if_neg hletter.2.2.2.2, if_pos hcontrol, hhex]
      refine ⟨.unit c.toNat, shows_unit (by omega), fun s => ?_⟩
      show ((unit? _ _ _ _).bind fun n => (pieces s).map fun (ps, r) => (Piece.unit n :: ps, r)) = _
      rw [hunit]
      rfl
  · -- all other characters stand as they are
    have hletter : ∀ k : Char, k.toNat < 0x20 → ¬c = k := by
      rintro k hk rfl
      exact hcontrol hk
    rw [if_neg (by omega), if_neg (by omega), if_neg (hletter _ (by decide)),
      if_neg (hletter _ (by decide)), if_neg (hletter _ (by decide)), if_neg hcontrol]
    refine ⟨.point (.char c), shows_point _, fun s => ?_⟩
    obtain ⟨hquote, hslash⟩ := not_or.mp hmark
    show pieces (.char c :: s) = _
    rw [pieces.eq_def]
    simp only [if_neg hquote, if_neg hcontrol, if_neg hslash]

/-- An escaped code point is read as a piece that stands for it. -/
theorem pieces_escape (c : CodePoint) : ∃ p : Piece, p.Shows c ∧
    ∀ s, pieces (escape c ++ s) = (pieces s).map fun (ps, r) => (p :: ps, r) := by
  cases c with
  | char c => exact pieces_escapeChar c
  | surrogate n => exact ⟨.point (.surrogate n), shows_point _, fun s => rfl⟩

/-- The escaped code points of a string are read up to the closing quote. -/
theorem pieces_flatMap (t rest : WideText) :
    ∃ ps, assemble ps = t ∧ pieces (t.flatMap escape ++ .char '"' :: rest) = some (ps, rest) := by
  induction t with
  | nil =>
    refine ⟨[], rfl, ?_⟩
    show pieces (.char '"' :: rest) = _
    unfold pieces
    rfl
  | cons c t ih =>
    obtain ⟨ps, hps, hread⟩ := ih
    obtain ⟨p, hp, hstep⟩ := pieces_escape c
    refine ⟨p :: ps, by rw [hp, hps], ?_⟩
    rw [List.flatMap_cons, List.append_assoc, hstep, hread]
    rfl

/-- **Strings are read back**, those with lone surrogates only by a dialect that takes them. -/
theorem string?_writeString {d : Dialect} {t : WideText}
    (ht : d.loneSurrogates = true ∨ WideText.isText t = true) (rest : WideText) :
    string? d (t.flatMap escape ++ .char '"' :: rest) = some (t, rest) := by
  obtain ⟨ps, rfl, hread⟩ := pieces_flatMap t rest
  unfold string?
  rw [hread]
  exact if_pos (Bool.or_eq_true _ _ ▸ ht)

/-- A dialect without lone surrogates reads only texts. -/
theorem isText_of_string? {d : Dialect} {s t rest : WideText} (h : string? d s = some (t, rest)) :
    d.loneSurrogates = true ∨ WideText.isText t = true := by
  unfold string? at h
  rcases hread : pieces s with _ | ⟨ps, r⟩
  · rw [hread] at h
    cases h
  · by_cases hallowed : (d.loneSurrogates || WideText.isText (assemble ps)) = true
    · simp only [hread, if_pos hallowed] at h
      cases h
      exact Bool.or_eq_true _ _ ▸ hallowed
    · simp only [hread, if_neg hallowed] at h
      cases h

end Json

end AliasGate
