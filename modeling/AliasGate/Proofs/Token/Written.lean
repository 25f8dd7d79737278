import AliasGate.Proofs.Query.ArrayKey
import AliasGate.Proofs.Query.Encoded
import AliasGate.Proofs.Token.Stripping
import Mathlib.Data.List.Infix

/-!
# Written arguments

A candidate writes each argument of a query anew: as it was transmitted, decoded, or with its name
in another notation, plainly or encoded. Where the argument has no characters that could be taken
for something else, what is written is read as that argument, whichever way was chosen.

* `Query.Clear`: the arguments that are read alike however they are written.
* `Query.Stands`: a field stands for an argument.
* `Query.stands_transmitted`, `Query.stands_plain`, `Query.stands_encoded`: the ways of writing.
-/

namespace AliasGate.Query

open Candidate (Whole isSeparator)

/-- An argument that is read alike however it is written: nothing in it separates arguments, and
unless it is the token's, nothing in it marks the token, its name ends at the equals sign, it has no
plus sign, and decoding it again changes nothing. -/
structure Clear (k : Text) (a : Argument) : Prop where
  ampersand : '&' ∉ writeArgument id a
  unmarked : a.1 ≠ k → ¬('?' :: (k ++ ['='])) <:+: writeArgument id a
  equals : a.1 ≠ k → '=' ∉ a.1
  plus : a.1 ≠ k → '+' ∉ writeArgument id a
  settledName : a.1 ≠ k → Percent.decode a.1 = a.1
  settledValue : a.1 ≠ k → ∀ v ∈ a.2, Percent.decode v = v

instance (k : Text) (a : Argument) : Decidable (Clear k a) :=
  decidable_of_iff
    ('&' ∉ writeArgument id a ∧ (a.1 ≠ k → ¬('?' :: (k ++ ['='])) <:+: writeArgument id a) ∧
      (a.1 ≠ k → '=' ∉ a.1) ∧ (a.1 ≠ k → '+' ∉ writeArgument id a) ∧
      (a.1 ≠ k → Percent.decode a.1 = a.1) ∧ (a.1 ≠ k → ∀ v ∈ a.2, Percent.decode v = v))
    ⟨fun ⟨h₁, h₂, h₃, h₄, h₅, h₆⟩ => ⟨h₁, h₂, h₃, h₄, h₅, h₆⟩,
      fun ⟨h₁, h₂, h₃, h₄, h₅, h₆⟩ => ⟨h₁, h₂, h₃, h₄, h₅, h₆⟩⟩

/-- A field stands for an argument: it is taken away or read as named like the token if the argument
is, and otherwise it stays and is read as the argument, up to the notation of its name. -/
structure Stands (k : Text) (f : Text) (a : Argument) : Prop where
  nonempty : f ≠ []
  ampersand : '&' ∉ f
  whole : a.1 ≠ k → Whole (k ++ ['=']) f
  token : a.1 = k → (k ++ ['=']) <+: f ∨ (read f).1 = k
  stays : a.1 ≠ k → ¬(k ++ ['=']) <+: f
  same : a.1 ≠ k → reduceKey (read f).1 = reduceKey a.1 ∧ (read f).2 = a.2.getD []
  last : a.1 ≠ k → ∀ t, f = t ++ ['?'] → ∃ u, writeArgument id a = u ++ ['?']

/-- A field for an argument goes or stays as a whole, unless it has the token's name in a spelling
that stripping does not know. -/
theorem Stands.whole_or_named {k f : Text} {a : Argument} (h : Stands k f a) :
    Whole (k ++ ['=']) f ∨ ¬(k ++ ['=']) <+: f ∧ (read f).1 = k := by
  by_cases ha : a.1 = k
  · by_cases hbegins : (k ++ ['=']) <+: f
    · exact .inl ⟨h.ampersand, fun hnot => absurd hbegins hnot⟩
    · exact .inr ⟨hbegins, (h.token ha).resolve_left hbegins⟩
  · exact .inl (h.whole ha)

theorem stands_fields {k : Text} {gs : List Text} {args : List Argument}
    (h : List.Forall₂ (Stands k) gs args) : ∀ f ∈ gs, f ≠ [] ∧ '&' ∉ f ∧
      (Whole (k ++ ['=']) f ∨ ¬(k ++ ['=']) <+: f ∧ (read f).1 = k) :=
  ((List.forall₂_and_left gs args).mp
    (h.imp fun _ _ hs => ⟨⟨hs.nonempty, hs.ampersand, hs.whole_or_named⟩, hs⟩)).1

section
variable {k : Text} (hplain : ∀ c ∈ k, Percent.isUnreserved c = true)
include hplain

theorem not_mem_marker {c : Char} (hc : Percent.isUnreserved c = false) (hne : c ≠ '=') :
    c ∉ k ++ ['='] := by
  intro h
  rcases List.mem_append.mp h with h | h
  · exact Percent.not_mem_of_unreserved hplain hc h
  · exact hne (List.mem_singleton.mp h)

/-! ## As transmitted -/

/-- A mark in a field is a mark in the decoded field. -/
theorem mark_decode {f : Text} (h : '?' :: (k ++ ['=']) <:+: f) :
    '?' :: (k ++ ['=']) <:+: Percent.decode f := by
  obtain ⟨x, y, rfl⟩ := h
  refine ⟨Percent.decode x, Percent.decode y, ?_⟩
  rw [List.append_assoc, List.append_assoc, List.cons_append, List.cons_append,
    Percent.decode_append (by decide),
    Percent.decode_append_left (not_mem_marker hplain rfl (by decide))]

omit hplain in
/-- Without plus signs a field is read as its argument. -/
theorem read_eq_pair {f : Text} (h : '+' ∉ Percent.decode f) : read f = pair (argument f) := by
  have hplus : '+' ∉ f := fun hf => h (Percent.mem_decode (by decide) hf)
  rcases Text.cut_cases '=' f with ⟨-, hcut⟩ | ⟨name, value, rfl, -, hcut⟩
  · rw [read, argument, hcut, pair, Percent.decodeForm_eq_decode hplus]
    rfl
  · have hname : '+' ∉ name := fun h => hplus (List.mem_append_left _ h)
    have hvalue : '+' ∉ value := fun h => hplus (List.mem_append_right _ (List.mem_cons_of_mem _ h))
    rw [read, argument, hcut, pair, Percent.decodeForm_eq_decode hname]
    exact congrArg _ (Percent.decodeForm_eq_decode hvalue)

/-- Whatever its spelling, a field with the name of the token is read so. -/
theorem read_token_name {f : Text} (h : (argument f).1 = k) : (read f).1 = k := by
  have hplus : '+' ∉ (Text.cut '=' f).1 := by
    intro hf
    have hmem : '+' ∈ k := h ▸ Percent.mem_decode (by decide) hf
    exact Percent.not_mem_of_unreserved hplain rfl hmem
  exact (Percent.decodeForm_eq_decode hplus).trans h

theorem stands_transmitted {f : Text} (hne : f ≠ []) (hamp : '&' ∉ f) (h : Clear k (argument f)) :
    Stands k f (argument f) where
  nonempty := hne
  ampersand := hamp
  whole hk := by
    refine Whole.of_question hamp fun hmark => h.unmarked hk ?_
    rw [writeArgument_argument]
    exact mark_decode hplain hmark
  token hk := .inr (read_token_name hplain hk)
  stays hk := by
    rintro ⟨v, rfl⟩
    refine hk ?_
    have hequals : '=' ∉ k := Percent.not_mem_of_unreserved hplain rfl
    have hpercent : '%' ∉ k := Percent.not_mem_of_unreserved hplain rfl
    rw [List.append_assoc, List.singleton_append, argument, Text.cut_append hequals]
    exact Percent.decode_eq_self hpercent
  same hk := by
    have hplus := h.plus hk
    rw [writeArgument_argument] at hplus
    rw [read_eq_pair hplus]
    exact ⟨rfl, rfl⟩
  last hk := by
    rintro t rfl
    refine ⟨Percent.decode t, ?_⟩
    rw [writeArgument_argument, Percent.decode_append (by decide)]
    rfl

/-! ## Written by a function -/

/-- An argument whose parts are read back from what a function writes stands there as itself. -/
theorem stands_written {w : Text → Text} {a : Argument} (hne : writeArgument w a ≠ [])
    (hamp : '&' ∉ writeArgument w a)
    (hwhole : a.1 ≠ k → Whole (k ++ ['=']) (writeArgument w a)) (hkey : w k = k)
    (hequals : a.1 ≠ k → '=' ∉ w a.1) (hname : a.1 ≠ k → Percent.decodeForm (w a.1) = a.1)
    (hvalue : a.1 ≠ k → ∀ v, a.2 = some v → Percent.decodeForm (w v) = v)
    (hlast : ∀ t, writeArgument w a = t ++ ['?'] → ∃ u, writeArgument id a = u ++ ['?']) :
    Stands k (writeArgument w a) a where
  nonempty := hne
  ampersand := hamp
  whole := hwhole
  token hk := by
    obtain ⟨name, value⟩ := a
    cases hk
    cases value with
    | none =>
      refine .inr ?_
      rw [writeArgument, hkey, read_name (Percent.not_mem_of_unreserved hplain rfl)]
      exact Percent.decodeForm_eq_self hplain
    | some v => exact .inl ⟨w v, by rw [writeArgument, hkey, List.append_assoc]; rfl⟩
  stays hk := by
    obtain ⟨name, value⟩ := a
    rintro ⟨t, ht⟩
    cases value with
    | none =>
      refine hequals hk ?_
      rw [writeArgument] at ht
      rw [← ht]
      simp
    | some v =>
      have hequalsk : '=' ∉ k := Percent.not_mem_of_unreserved hplain rfl
      have hcut : Text.cut '=' (k ++ '=' :: t) = Text.cut '=' (w name ++ '=' :: w v) := by
        rw [← writeArgument, ← ht, List.append_assoc, List.singleton_append]
      rw [Text.cut_append hequalsk, Text.cut_append (hequals hk), Prod.mk.injEq] at hcut
      refine hk ?_
      rw [← hname hk, ← hcut.1, Percent.decodeForm_eq_self hplain]
  same hk := by
    obtain ⟨name, value⟩ := a
    cases value with
    | none =>
      rw [writeArgument, read_name (hequals hk), hname hk]
      exact ⟨rfl, rfl⟩
    | some v =>
      rw [writeArgument, read_value (hequals hk), hname hk, hvalue hk v rfl]
      exact ⟨rfl, rfl⟩
  last _ := hlast

theorem stands_plain {a : Argument} (h : Clear k a) (hne : writeArgument id a ≠ []) :
    Stands k (writeArgument id a) a := by
  refine stands_written hplain hne h.ampersand
    (fun hk => Whole.of_question h.ampersand (h.unmarked hk)) rfl h.equals ?_ ?_
    fun t ht => ⟨t, ht⟩
  · intro hk
    refine (Percent.decodeForm_eq_decode fun hplus => h.plus hk ?_).trans (h.settledName hk)
    obtain ⟨name, _ | v⟩ := a
    · exact hplus
    · exact List.mem_append_left _ hplus
  · intro hk v hv
    refine (Percent.decodeForm_eq_decode fun hplus => h.plus hk ?_).trans (h.settledValue hk v hv)
    obtain ⟨name, value⟩ := a
    cases hv
    exact List.mem_append_right _ (List.mem_cons_of_mem _ hplus)

omit hplain in
/-- An encoded argument has no separators. -/
theorem isSeparator_of_mem_encoded {a : Argument} {c : Char} (h : c ∈ encoded a) :
    isSeparator c = false := by
  refine Candidate.isSeparator_eq_false ?_ ?_ <;> rintro rfl <;>
    rcases mem_encoded h with h | h | h <;> cases h

theorem stands_encoded {a : Argument} (hne : writeArgument id a ≠ []) :
    Stands k (writeArgument Percent.encode a) a := by
  have hwhole : Whole (k ++ ['=']) (writeArgument Percent.encode a) :=
    Whole.of_plain fun _ => isSeparator_of_mem_encoded
  refine stands_written hplain ?_ hwhole.1 (fun _ => hwhole) (Percent.encode_eq_self hplain)
    (fun _ => Percent.not_mem_encode rfl (by decide) _)
    (fun _ => decodeForm_encode _) (fun _ v _ => decodeForm_encode v) ?_
  · refine encoded_ne_nil ?_
    rintro rfl
    exact hne rfl
  · intro t ht
    have hmem : '?' ∈ writeArgument Percent.encode a :=
      ht ▸ List.mem_append_right t List.mem_cons_self
    cases isSeparator_of_mem_encoded hmem

/-! ## In another notation -/

omit hplain in
/-- Behind the name an equals sign that ends a text ends it inside of the value. -/
theorem infix_value {m name v : Text} (hm : '=' ∉ m) (hname : '=' ∉ name)
    (h : m ++ ['='] <:+: name ++ '=' :: v) : m <:+ name ∨ m ++ ['='] <:+: v := by
  obtain ⟨x, y, h⟩ := h
  rw [List.append_assoc, List.append_assoc, List.singleton_append, ← List.append_assoc] at h
  rcases List.append_eq_append_iff.mp h with ⟨w, hw, hrest⟩ | ⟨w, hw, hrest⟩
  · cases w with
    | nil => exact .inl ⟨x, by simpa using hw.symm⟩
    | cons c w =>
      have hc : '=' = c := (List.cons.inj hrest).1
      exact absurd (hw ▸ List.mem_append_right _ (hc ▸ List.mem_cons_self)) hname
  · cases w with
    | nil => exact .inl ⟨x, by simpa using hw⟩
    | cons c w =>
      obtain ⟨rfl, rfl⟩ := List.cons.inj hrest
      rw [List.append_cons] at hw
      rcases List.append_eq_append_iff.mp hw with ⟨u, hu, rfl⟩ | ⟨u, hu, rfl⟩
      · rcases List.eq_nil_or_concat u with rfl | ⟨u, c, rfl⟩
        · exact .inr ⟨[], y, by simp⟩
        · rw [List.concat_eq_append, ← List.append_assoc] at hu
          obtain rfl : '=' = c := (List.cons.inj (List.append_inj' hu rfl).2).1
          exact absurd (by simp) hm
      · exact .inr ⟨u, y, by simp⟩

variable {a b : Argument} (hv : Variant a b)
include hv

theorem Variant.name_iff : b.1 = k ↔ a.1 = k := by
  have hbracket : '[' ∉ k := Percent.not_mem_of_unreserved hplain rfl
  constructor
  · intro hb
    exact (hv.1.symm.eq_of_not_mem (hb ▸ hbracket)).trans hb
  · intro ha
    exact (hv.1.eq_of_not_mem (ha ▸ hbracket)).trans ha

theorem Variant.name_ne_iff : b.1 ≠ k ↔ a.1 ≠ k := not_congr (Variant.name_iff hplain hv)

omit hplain in
theorem Variant.mem_written {c : Char} (hc : Text.isDecimalDigit c = false)
    (h : c ∈ writeArgument id b) : c ∈ writeArgument id a := by
  obtain ⟨name, value⟩ := a
  obtain ⟨name', value'⟩ := b
  obtain ⟨hname, rfl⟩ := hv
  have hmem : c ∈ name' → c ∈ name := fun h =>
    (hname.mem_or_digit h).resolve_right (by simp [hc])
  cases value' with
  | none => exact hmem h
  | some v => exact List.mem_append.mpr ((List.mem_append.mp h).imp_left hmem)

/-- Another notation of a name does not end in a mark that was not there. -/
theorem Clear.variant (h : Clear k a) : Clear k b where
  ampersand hamp := h.ampersand (hv.mem_written rfl hamp)
  unmarked hk hmark := by
    have hak := (Variant.name_ne_iff hplain hv).mp hk
    refine h.unmarked hak ?_
    have hequals : '=' ∉ b.1 := fun hmem =>
      h.equals hak ((hv.1.mem_or_digit hmem).resolve_right (by decide))
    obtain ⟨name, value⟩ := a
    obtain ⟨name', value'⟩ := b
    obtain ⟨hren, rfl⟩ := hv
    cases value' with
    | none => exact absurd (hmark.subset (by simp)) hequals
    | some v =>
      have hm : '=' ∉ '?' :: k := by
        intro hmem
        rcases List.mem_cons.mp hmem with hmem | hmem
        · cases hmem
        · exact Percent.not_mem_of_unreserved hplain rfl hmem
      rcases infix_value hm hequals hmark with ⟨u, hu⟩ | hvalue
      · -- The mark ends the name, and a name that ends like this has one notation only.
        obtain ⟨s, c, hsc⟩ : ∃ s c, '?' :: k = s ++ [c] :=
          ⟨_, _, (List.dropLast_concat_getLast (List.cons_ne_nil '?' k)).symm⟩
        have hc : c ∈ '?' :: k := hsc ▸ List.mem_append_right s List.mem_cons_self
        have hlast : c ≠ ']' ∧ c ≠ '\n' := by
          rcases List.mem_cons.mp hc with rfl | hc
          · decide
          · exact ⟨Percent.isUnreserved_ne (hplain c hc) rfl,
              Percent.isUnreserved_ne (hplain c hc) rfl⟩
        have hends : name' = (u ++ s) ++ [c] := by
          rw [List.append_assoc, ← hsc]
          exact hu.symm
        have hname : name' = name := hren.eq_of_last hends hlast
        rwa [← hname]
      · exact hvalue.trans ⟨name ++ ['='], [], by simp [writeArgument]⟩
  equals hk hmem := by
    have hak := (Variant.name_ne_iff hplain hv).mp hk
    exact h.equals hak ((hv.1.mem_or_digit hmem).resolve_right (by decide))
  plus hk hmem := by
    have hak := (Variant.name_ne_iff hplain hv).mp hk
    exact h.plus hak (hv.mem_written rfl hmem)
  settledName hk := by
    have hak := (Variant.name_ne_iff hplain hv).mp hk
    exact hv.1.settled (h.settledName hak)
  settledValue hk v hbv := by
    have hak := (Variant.name_ne_iff hplain hv).mp hk
    exact h.settledValue hak v (hv.2 ▸ hbv)

/-- What stands for an argument stands for it in any notation. -/
theorem Stands.variant {f : Text} (h : Stands k f b) : Stands k f a where
  nonempty := h.nonempty
  ampersand := h.ampersand
  whole ha := h.whole ((Variant.name_ne_iff hplain hv).mpr ha)
  token ha := h.token ((Variant.name_iff hplain hv).mpr ha)
  stays ha := h.stays ((Variant.name_ne_iff hplain hv).mpr ha)
  same ha := by
    rw [← reduceKey_renotated hv.1, ← hv.2]
    exact h.same ((Variant.name_ne_iff hplain hv).mpr ha)
  last ha t ht := by
    obtain ⟨u, hu⟩ := h.last ((Variant.name_ne_iff hplain hv).mpr ha) t ht
    obtain ⟨name, value⟩ := a
    obtain ⟨name', value'⟩ := b
    obtain ⟨hren, rfl⟩ := hv
    cases value' with
    | none => exact hren.last hu
    | some v =>
      rcases List.eq_nil_or_concat v with rfl | ⟨v, c, rfl⟩
      · have hends : name' ++ ['='] = u ++ ['?'] := hu
        cases (List.append_inj' hends rfl).2
      · have hends : (name' ++ '=' :: v) ++ [c] = u ++ ['?'] := by
          simpa [writeArgument] using hu
        obtain ⟨-, hc⟩ := List.append_inj' hends rfl
        exact ⟨name ++ '=' :: v, by simp [writeArgument, hc]⟩

end

end AliasGate.Query
