import AliasGate.Proofs.Bytes.Utf8
import AliasGate.Query.Percent

/-!
# Percent encoding and decoding

* `Percent.decode_append`: a character that separates, such as `&`, `=`, `?` or `+`, is read as
  itself, and so are the texts before and after it.
* `Percent.decode_cons`: only a percent sign begins an escape.
* `Percent.decode_encode`: what was encoded is read back.
* `Percent.mem_encode`: which characters an encoded text has.
-/

namespace AliasGate.Percent

/-- The character is in ASCII and can be no part of an escape. -/
def Separates (c : Char) : Prop := c.toNat < 0x80 ∧ Text.hexValue? c = none ∧ c ≠ '%'

instance (c : Char) : Decidable (Separates c) := inferInstanceAs (Decidable (_ ∧ _ ∧ _))

/-! ## Bytes -/

section
variable {c : Char}

theorem bytes_cons (hc : c ≠ '%') (s : Text) : bytes (c :: s) = UInt8.ofNat c.toNat :: bytes s := by
  rw [bytes]
  rintro a b s rfl
  exact absurd rfl hc

/-- A percent sign before something else than a digit stands for itself. -/
theorem bytes_percent (hc : Text.hexValue? c = none) (s : Text) :
    bytes ('%' :: c :: s) = UInt8.ofNat '%'.toNat :: bytes (c :: s) := by
  cases s with
  | nil => rfl
  | cons b s => simp only [bytes, hc]

theorem bytes_append (hc : Separates c) (x y : Text) :
    bytes (x ++ c :: y) = bytes x ++ UInt8.ofNat c.toNat :: bytes y := by
  obtain ⟨-, hhex, hne⟩ := hc
  fun_induction bytes x with
  | case1 a b s u v hv hu ih =>
    simp only [List.cons_append, bytes, hu, hv, ih]
  | case2 a b s hno ih =>
    simp only [List.cons_append] at ih
    simp only [List.cons_append, bytes, ih]
  | case3 a s hno ih =>
    rw [List.cons_append, List.cons_append]
    by_cases ha : a = '%'
    · subst ha
      match s with
      | [] => rw [List.nil_append, bytes_percent hhex, bytes_cons hne]; rfl
      | [b] =>
        rw [List.cons_append, List.nil_append] at ih ⊢
        simp only [bytes, hhex, ih]
        cases Text.hexValue? b <;> rfl
      | b :: b' :: s => exact absurd rfl (hno b b' s rfl)
    · rw [bytes_cons ha, ih]
  | case4 => exact bytes_cons hne y

theorem bytes_eq_nil {s : Text} (h : bytes s = []) : s = [] := by
  fun_cases bytes s with
  | case1 => simp_all [bytes]
  | case2 => simp_all [bytes]
  | case3 => simp_all [bytes]
  | case4 => rfl

end

/-! ## Decoding -/

section
variable {c : Char}

theorem decodeLossy_append (hc : Separates c) (x y : Text) :
    Utf8.decodeLossy (bytes (x ++ c :: y)) =
      Utf8.decodeLossy (bytes x) ++ c :: Utf8.decodeLossy (bytes y) := by
  have hnat : (UInt8.ofNat c.toNat).toNat = c.toNat :=
    UInt8.toNat_ofNat_of_lt (show c.toNat < 256 by have := hc.1; omega)
  have hlt : UInt8.ofNat c.toNat < 0x80 := by
    rw [UInt8.lt_iff_toNat_lt, hnat]
    exact hc.1
  rw [bytes_append hc, Utf8.decodeLossy_append_ascii hlt, hnat, Char.ofNat_toNat]

/-- A separating character in the run of ASCII characters divides it. -/
theorem decodeFrom_append_run (hc : Separates c) (run run' s : Text) :
    decodeFrom (run' ++ c :: run) s =
      Utf8.decodeLossy (bytes run.reverse) ++ c :: decodeFrom run' s := by
  have hreverse : (run' ++ c :: run).reverse = run.reverse ++ c :: run'.reverse := by
    rw [List.reverse_append, List.reverse_cons, List.append_assoc, List.singleton_append]
  induction s generalizing run' with
  | nil => rw [decodeFrom, hreverse, decodeLossy_append hc, decodeFrom]
  | cons a s ih =>
    simp only [decodeFrom]
    split
    · refine ih (a :: run') ?_
      rw [List.cons_append, List.reverse_cons, hreverse, List.reverse_cons, List.append_assoc,
        List.cons_append]
    · rw [hreverse, decodeLossy_append hc, List.append_assoc, List.cons_append]

theorem decodeFrom_append (hc : Separates c) (run s t : Text) :
    decodeFrom run (s ++ c :: t) = decodeFrom run s ++ c :: decode t := by
  have hascii : isAscii c = true := decide_eq_true hc.1
  induction s generalizing run with
  | nil =>
    simp only [List.nil_append, decodeFrom, if_pos hascii]
    exact decodeFrom_append_run hc run [] t
  | cons a s ih =>
    simp only [List.cons_append, decodeFrom]
    split
    · exact ih (a :: run)
    · rw [ih, List.append_assoc, List.cons_append]

/-- A separating character is read as itself, and what stands before and after it on its own. -/
theorem decode_append (hc : Separates c) (s t : Text) :
    decode (s ++ c :: t) = decode s ++ c :: decode t := decodeFrom_append hc [] s t

theorem mem_decode (hc : Separates c) {s : Text} (h : c ∈ s) : c ∈ decode s := by
  obtain ⟨x, y, rfl⟩ := List.append_of_mem h
  rw [decode_append hc]
  exact List.mem_append_right _ List.mem_cons_self

end

/-- What is read on its own at the beginning of a run of ASCII characters is read first. -/
theorem decodeFrom_run_append {x : Text} {c : Char}
    (hx : ∀ s, Utf8.decodeLossy (bytes (x ++ s)) = c :: Utf8.decodeLossy (bytes s)) (run s : Text) :
    decodeFrom (run ++ x.reverse) s = c :: decodeFrom run s := by
  have hrun : ∀ y : Text, Utf8.decodeLossy (bytes (y ++ x.reverse).reverse) =
      c :: Utf8.decodeLossy (bytes y.reverse) := fun y => by
    rw [List.reverse_append, List.reverse_reverse, hx]
  induction s generalizing run with
  | nil => exact hrun run
  | cons a s ih =>
    simp only [decodeFrom]
    split
    · exact ih (a :: run)
    · rw [hrun, List.cons_append]

/-- A run of ASCII characters without a percent sign at its beginning. -/
theorem decodeFrom_run_cons {c : Char} (hascii : c.toNat < 0x80) (hc : c ≠ '%') (run s : Text) :
    decodeFrom (run ++ [c]) s = c :: decodeFrom run s := by
  have hnat : (UInt8.ofNat c.toNat).toNat = c.toNat :=
    UInt8.toNat_ofNat_of_lt (show c.toNat < 256 by omega)
  have hlt : UInt8.ofNat c.toNat < 0x80 := by
    rw [UInt8.lt_iff_toNat_lt, hnat]
    exact hascii
  refine decodeFrom_run_append (x := [c]) (fun y => ?_) run s
  rw [List.singleton_append, bytes_cons hc, Utf8.decodeLossy_cons_ascii hlt, hnat, Char.ofNat_toNat]

/-- Only a percent sign begins an escape. -/
theorem decode_cons {c : Char} (hc : c ≠ '%') (s : Text) : decode (c :: s) = c :: decode s := by
  unfold decode
  rw [decodeFrom]
  split
  next hascii => exact decodeFrom_run_cons (of_decide_eq_true hascii) hc [] s
  next => rfl

theorem decode_append_left {s : Text} (h : '%' ∉ s) (t : Text) : decode (s ++ t) = s ++ decode t := by
  induction s with
  | nil => rfl
  | cons c s ih =>
    rw [List.cons_append, decode_cons (fun hc => h (hc ▸ List.mem_cons_self)),
      ih (fun hs => h (List.mem_cons_of_mem c hs)), List.cons_append]

theorem decode_eq_self {s : Text} (h : '%' ∉ s) : decode s = s := by
  have hs := decode_append_left h []
  rwa [List.append_nil, show decode [] = [] from rfl, List.append_nil] at hs

theorem decodeFrom_eq_nil {run s : Text} (h : decodeFrom run s = []) : run = [] ∧ s = [] := by
  induction s generalizing run with
  | nil =>
    have hrun := bytes_eq_nil (Utf8.decodeLossy_eq_nil h)
    exact ⟨List.reverse_eq_nil_iff.mp hrun, rfl⟩
  | cons c s ih =>
    simp only [decodeFrom] at h
    split at h
    · cases (ih h).1
    · cases (List.append_eq_nil_iff.mp h).2

theorem decode_eq_nil {s : Text} (h : decode s = []) : s = [] := (decodeFrom_eq_nil h).2

theorem map_plus_eq_self {s : Text} (h : '+' ∉ s) :
    (s.map fun c => if c = '+' then ' ' else c) = s :=
  (List.map_congr_left fun c hc => if_neg fun hplus : c = '+' => h (hplus ▸ hc)).trans
    (List.map_id s)

/-- Without a plus sign, form data is read like anything else. -/
theorem decodeForm_eq_decode {s : Text} (h : '+' ∉ s) : decodeForm s = decode s := by
  rw [decodeForm, map_plus_eq_self h]

/-! ## Encoding -/

/-- The upper-case hexadecimal digit of a number below sixteen. -/
def digit (n : Nat) : Char := (Nat.digitChar n).toUpper

theorem digit_spec : ∀ n < 16, Text.hexValue? (digit n) = some n ∧ isUnreserved (digit n) = true := by
  decide

theorem escape_eq (b : UInt8) : escape b = ['%', digit (b.toNat / 16), digit (b.toNat % 16)] := by
  have hall : ∀ n < 256,
      (Text.hex 2 n).map Char.toUpper = [digit (n / 16), digit (n % 16)] := by
    decide +kernel
  rw [escape, hall b.toNat b.toNat_lt]

theorem bytes_escape (b : UInt8) (s : Text) : bytes (escape b ++ s) = b :: bytes s := by
  have hb := b.toNat_lt
  obtain ⟨hhigh, -⟩ := digit_spec (b.toNat / 16) (by omega)
  obtain ⟨hlow, -⟩ := digit_spec (b.toNat % 16) (by omega)
  have hsum : b.toNat / 16 * 16 + b.toNat % 16 = b.toNat := Nat.div_add_mod' b.toNat 16
  rw [escape_eq]
  simp only [List.cons_append, List.nil_append, bytes, hhigh, hlow, hsum, UInt8.ofNat_toNat]

theorem bytes_escapes (bs : Bytes) (s : Text) : bytes (bs.flatMap escape ++ s) = bs ++ bytes s := by
  induction bs with
  | nil => rfl
  | cons b bs ih => rw [List.flatMap_cons, List.append_assoc, bytes_escape, ih, List.cons_append]

theorem isUnreserved_ascii {c : Char} (h : isUnreserved c = true) : c.toNat < 0x80 := by
  have hle : ∀ {d : Char}, c ≤ d → c.toNat ≤ d.toNat := fun h => h
  simp only [isUnreserved, Bool.or_eq_true, Bool.and_eq_true, decide_eq_true_eq, beq_iff_eq] at h
  rcases h with (((((h | h) | h) | h) | h) | h) | h
  · exact Nat.lt_of_le_of_lt (hle h.2) (by decide)
  · exact Nat.lt_of_le_of_lt (hle h.2) (by decide)
  · exact Nat.lt_of_le_of_lt (hle h.2) (by decide)
  all_goals
    subst h
    decide

/-- No unreserved character separates. -/
theorem isUnreserved_ne {c d : Char} (h : isUnreserved c = true) (hd : isUnreserved d = false) :
    c ≠ d := by
  rintro rfl
  rw [h] at hd
  cases hd

theorem not_mem_of_unreserved {s : Text} {d : Char} (hs : ∀ c ∈ s, isUnreserved c = true)
    (hd : isUnreserved d = false) : d ∉ s :=
  fun h => isUnreserved_ne (hs d h) hd rfl

theorem encodeChar_eq (c : Char) :
    encodeChar c = [c] ∧ isUnreserved c = true ∨
      encodeChar c = (String.utf8EncodeChar c).flatMap escape := by
  unfold encodeChar
  split
  next h => exact .inl ⟨rfl, h⟩
  next => exact .inr rfl

theorem bytes_encodeChar (c : Char) (s : Text) :
    bytes (encodeChar c ++ s) = String.utf8EncodeChar c ++ bytes s := by
  rcases encodeChar_eq c with ⟨hc, h⟩ | hc
  · have hascii := isUnreserved_ascii h
    have hutf8 : String.utf8EncodeChar c = [UInt8.ofNat c.toNat] := by
      unfold String.utf8EncodeChar
      exact if_pos (show c.val.toNat ≤ 0x7f from Nat.le_of_lt_succ hascii)
    rw [hc, hutf8, List.singleton_append, bytes_cons (isUnreserved_ne h rfl)]
    rfl
  · rw [hc, bytes_escapes]

theorem bytes_encode (s : Text) : bytes (encode s) = Utf8.encode s := by
  unfold encode Utf8.encode
  induction s with
  | nil => rfl
  | cons c s ih => rw [List.flatMap_cons, bytes_encodeChar, ih, List.flatMap_cons]

/-- An encoded text has only unreserved characters and percent signs. -/
theorem mem_encode {c : Char} {s : Text} (h : c ∈ encode s) : isUnreserved c = true ∨ c = '%' := by
  obtain ⟨a, -, ha⟩ := List.mem_flatMap.mp h
  rcases encodeChar_eq a with ⟨hc, hun⟩ | hc
  · rw [hc, List.mem_singleton] at ha
    exact .inl (ha ▸ hun)
  · rw [hc] at ha
    obtain ⟨b, -, hb⟩ := List.mem_flatMap.mp ha
    have hlt := b.toNat_lt
    rw [escape_eq] at hb
    simp only [List.mem_cons, List.not_mem_nil, or_false] at hb
    rcases hb with rfl | rfl | rfl
    · exact .inr rfl
    · exact .inl (digit_spec (b.toNat / 16) (by omega)).2
    · exact .inl (digit_spec (b.toNat % 16) (by omega)).2

theorem not_mem_encode {c : Char} (hc : isUnreserved c = false) (hne : c ≠ '%') (s : Text) :
    c ∉ encode s := by
  intro h
  rcases mem_encode h with h | h
  · exact isUnreserved_ne h hc rfl
  · exact hne h

theorem decodeFrom_of_ascii {s : Text} (h : ∀ c ∈ s, isAscii c = true) (run : Text) :
    decodeFrom run s = Utf8.decodeLossy (bytes (run.reverse ++ s)) := by
  induction s generalizing run with
  | nil => rw [decodeFrom, List.append_nil]
  | cons c s ih =>
    simp only [decodeFrom, if_pos (h c List.mem_cons_self)]
    rw [ih (fun d hd => h d (List.mem_cons_of_mem c hd)), List.reverse_cons, List.append_assoc,
      List.singleton_append]

theorem decode_encode (s : Text) : decode (encode s) = s := by
  have hascii : ∀ c ∈ encode s, isAscii c = true := by
    intro c hc
    rcases mem_encode hc with h | rfl
    · exact decide_eq_true (isUnreserved_ascii h)
    · rfl
  rw [decode, decodeFrom_of_ascii hascii, List.reverse_nil, List.nil_append, bytes_encode,
    Utf8.decodeLossy_encode]

theorem encode_eq_self {s : Text} (h : ∀ c ∈ s, isUnreserved c = true) : encode s = s := by
  induction s with
  | nil => rfl
  | cons c s ih =>
    have hc : encodeChar c = [c] := if_pos (h c List.mem_cons_self)
    have hs := ih fun d hd => h d (List.mem_cons_of_mem c hd)
    rw [encode, List.flatMap_cons, hc, List.singleton_append]
    exact congrArg (c :: ·) hs

theorem decodeForm_eq_self {s : Text} (h : ∀ c ∈ s, isUnreserved c = true) : decodeForm s = s := by
  rw [decodeForm_eq_decode (not_mem_of_unreserved h rfl),
    decode_eq_self (not_mem_of_unreserved h rfl)]

end AliasGate.Percent
