import AliasGate.Proofs.Query.Encoded

/-!
# Ways to write a text in a query

One text can be written in many ways: each character as itself, unless it means something else
there, or as the escapes of its bytes, with digits in either case, and a space also as a plus sign.

* `Percent.Escapes raw bs`: the escapes of bytes.
* `Percent.Spells reserved raw s`: a way to write `s` without the reserved characters.
* `Percent.Spells.decodeForm_eq`: however a text is written, it is read back.
* `Percent.Spells.not_mem`: reserved characters are no part of what is written.
* `Percent.spells_encode`, `Percent.spells_self`: the encoded form is one way to write a text, and
  a text without special characters is one itself.
-/

namespace AliasGate.Percent

/-! ## Escapes -/

/-- An escape for each byte, digits in either case. -/
inductive Escapes : Text → Bytes → Prop
  | nil : Escapes [] []
  | cons {a b : Char} {x y : Nat} {raw : Text} {bs : Bytes} (ha : Text.hexValue? a = some x)
    (hb : Text.hexValue? b = some y) (h : Escapes raw bs) :
    Escapes ('%' :: a :: b :: raw) (UInt8.ofNat (x * 16 + y) :: bs)

section
variable {raw : Text} {bs : Bytes}

theorem Escapes.bytes_append (h : Escapes raw bs) (s : Text) : bytes (raw ++ s) = bs ++ bytes s := by
  induction h with
  | nil => rfl
  | cons ha hb h ih => simp only [List.cons_append, bytes, ha, hb, ih]

/-- An escape has no other characters than the percent sign and digits. -/
theorem Escapes.mem (h : Escapes raw bs) {c : Char} (hc : c ∈ raw) :
    c = '%' ∨ ∃ x, Text.hexValue? c = some x := by
  induction h with
  | nil => exact absurd hc List.not_mem_nil
  | cons ha hb h ih =>
    simp only [List.mem_cons] at hc
    rcases hc with rfl | rfl | rfl | hc
    · exact .inl rfl
    · exact .inr ⟨_, ha⟩
    · exact .inr ⟨_, hb⟩
    · exact ih hc

theorem Escapes.not_mem (h : Escapes raw bs) {c : Char} (hhex : Text.hexValue? c = none)
    (hne : c ≠ '%') : c ∉ raw := by
  intro hc
  rcases h.mem hc with rfl | ⟨x, hx⟩
  · exact hne rfl
  · rw [hhex] at hx
    cases hx

theorem hexValue?_ascii {c : Char} {x : Nat} (h : Text.hexValue? c = some x) : c.toNat < 0x80 := by
  have hle : ∀ {d : Char}, c ≤ d → c.toNat ≤ d.toNat := fun h => h
  unfold Text.hexValue? at h
  split at h
  next hdigit => exact Nat.lt_of_le_of_lt (hle hdigit.2) (by decide)
  split at h
  next hlower => exact Nat.lt_of_le_of_lt (hle hlower.2) (by decide)
  split at h
  next hupper => exact Nat.lt_of_le_of_lt (hle hupper.2) (by decide)
  next => cases h

theorem Escapes.ascii (h : Escapes raw bs) : ∀ c ∈ raw, isAscii c = true := by
  intro c hc
  rcases h.mem hc with rfl | ⟨x, hx⟩
  · rfl
  · exact decide_eq_true (hexValue?_ascii hx)

/-- The escapes of several bytes by the encoder. -/
theorem escapes_escape (bs : Bytes) : Escapes (bs.flatMap escape) bs := by
  induction bs with
  | nil => exact .nil
  | cons b bs ih =>
    have hb := b.toNat_lt
    obtain ⟨hhigh, -⟩ := digit_spec (b.toNat / 16) (by omega)
    obtain ⟨hlow, -⟩ := digit_spec (b.toNat % 16) (by omega)
    have hcons := Escapes.cons hhigh hlow ih
    rw [Nat.div_add_mod' b.toNat 16, UInt8.ofNat_toNat] at hcons
    rw [List.flatMap_cons, escape_eq]
    exact hcons

end

/-- Characters of ASCII join the run in progress. -/
theorem decodeFrom_ascii {x : Text} (hx : ∀ c ∈ x, isAscii c = true) (run s : Text) :
    decodeFrom run (x ++ s) = decodeFrom (x.reverse ++ run) s := by
  induction x generalizing run with
  | nil => rfl
  | cons c x ih =>
    rw [List.cons_append, decodeFrom, if_pos (hx c List.mem_cons_self),
      ih (fun d hd => hx d (List.mem_cons_of_mem c hd)), List.reverse_cons, List.append_assoc,
      List.singleton_append]

/-- The escapes of a character's bytes stand for the character, whatever follows. -/
theorem decode_escapes {raw : Text} {c : Char} (h : Escapes raw (String.utf8EncodeChar c))
    (s : Text) : decode (raw ++ s) = c :: decode s := by
  unfold decode
  rw [decodeFrom_ascii h.ascii, List.append_nil, ← List.nil_append raw.reverse]
  refine decodeFrom_run_append (fun s => ?_) [] s
  rw [h.bytes_append, Utf8.decodeLossy_encodeChar]

/-! ## Texts -/

/-- The first text is a way to write the second one where some characters are reserved. -/
inductive Spells (reserved : Text) : Text → Text → Prop
  | nil : Spells reserved [] []
  | plain {c : Char} {raw s : Text} (hpercent : c ≠ '%') (hplus : c ≠ '+') (hfree : c ∉ reserved)
    (h : Spells reserved raw s) : Spells reserved (c :: raw) (c :: s)
  | blank {raw s : Text} (h : Spells reserved raw s) : Spells reserved ('+' :: raw) (' ' :: s)
  | escaped {c : Char} {esc raw s : Text} (hesc : Escapes esc (String.utf8EncodeChar c))
    (h : Spells reserved raw s) : Spells reserved (esc ++ raw) (c :: s)

section
variable {reserved raw s : Text}

theorem spells_escapes {c : Char} (h : Escapes raw (String.utf8EncodeChar c)) :
    Spells reserved raw [c] := by
  have hspells : Spells reserved (raw ++ []) [c] := .escaped h .nil
  rwa [List.append_nil] at hspells

/-- However a text is written, it is read back. -/
theorem Spells.decodeForm_eq (h : Spells reserved raw s) : decodeForm raw = s := by
  unfold decodeForm
  induction h with
  | nil => rfl
  | plain hpercent hplus hfree h ih =>
    rw [List.map_cons, if_neg hplus, decode_cons hpercent, ih]
  | blank h ih =>
    rw [List.map_cons, if_pos rfl, decode_cons (by decide), ih]
  | escaped hesc h ih =>
    rw [List.map_append, map_plus_eq_self (hesc.not_mem rfl (by decide)), decode_escapes hesc, ih]

theorem Spells.not_mem (h : Spells reserved raw s) {c : Char} (hc : c ∈ reserved)
    (hhex : Text.hexValue? c = none) (hpercent : c ≠ '%') (hplus : c ≠ '+') : c ∉ raw := by
  induction h with
  | nil => exact List.not_mem_nil
  | plain _ _ hfree h ih =>
    rintro (_ | ⟨_, hraw⟩)
    · exact hfree hc
    · exact ih hraw
  | blank h ih =>
    rintro (_ | ⟨_, hraw⟩)
    · exact hplus rfl
    · exact ih hraw
  | escaped hesc h ih =>
    intro hraw
    rcases List.mem_append.mp hraw with hraw | hraw
    · exact hesc.not_mem hhex hpercent hraw
    · exact ih hraw

/-- The encoded form is one way to write a text. -/
theorem spells_encode (h : ∀ c ∈ reserved, isUnreserved c = false) (s : Text) :
    Spells reserved (encode s) s := by
  induction s with
  | nil => exact .nil
  | cons c s ih =>
    rw [encode, List.flatMap_cons]
    rcases encodeChar_eq c with ⟨hc, hun⟩ | hc
    · rw [hc]
      refine .plain (isUnreserved_ne hun rfl) (isUnreserved_ne hun rfl) (fun hmem => ?_) ih
      exact isUnreserved_ne hun (h c hmem) rfl
    · rw [hc]
      exact .escaped (escapes_escape _) ih

/-- A text without special characters is one way to write itself. -/
theorem spells_self (h : ∀ c ∈ s, c ≠ '%' ∧ c ≠ '+' ∧ c ∉ reserved) : Spells reserved s s := by
  induction s with
  | nil => exact .nil
  | cons c s ih =>
    obtain ⟨hpercent, hplus, hfree⟩ := h c List.mem_cons_self
    exact .plain hpercent hplus hfree (ih fun d hd => h d (List.mem_cons_of_mem c hd))

end

end AliasGate.Percent
