import AliasGate.Proofs.Json.Parts
import AliasGate.Proofs.Number.Rounding
import Mathlib.Data.List.Forall2
import Mathlib.Data.List.Perm.Subperm

/-!
# Values that agree and values that are the same

Two ways to compare values. Both go through lists element by element and through objects name by
name; they differ in the values that are left then.

* `Json.agreesBy R` compares those values by `R`. `Json.agrees` is one case (`agrees_eq`): it only
  looks at the number that a truth value, a whole number or another number stands for.
* `Json.same` is the other: nothing but the order of members may differ.
* `Json.agreesBy_refl`, `Json.agreesBy_symm`: in objects without repeated names, both are reflexive
  and symmetric.
* `Json.same_of_agrees`: what agrees with a firm value is the same. Not firm are truth values,
  numbers that are integers, and integers that are the value of such a number.
-/

namespace AliasGate

namespace Double

theorem agrees_refl (x : Double) : x.agrees x = true := by
  cases x <;> simp [agrees]

theorem agrees_comm (x y : Double) : x.agrees y = y.agrees x := by
  cases x with
  | finite a m =>
    cases y with
    | finite b n =>
      by_cases hmn : m = n
      · simp [agrees, hmn, Bool.beq_comm]
      · simp [agrees, beq_eq_false_iff_ne.mpr hmn, beq_eq_false_iff_ne.mpr (Ne.symm hmn)]
    | _ => rfl
  | _ => cases y <;> simp [agrees, Bool.beq_comm]

/-- Both zeros are integers, so numbers that are not integers agree only if they are equal. -/
theorem eq_of_agrees {x y : Double} (hy : y.toInt? = none) (h : x.agrees y = true) : x = y := by
  cases y with
  | finite b n =>
    cases x with
    | finite a m =>
      simp only [agrees, Bool.and_eq_true, Bool.or_eq_true, beq_iff_eq] at h
      obtain ⟨rfl, hab | hzero⟩ := h
      · rw [hab]
      · have hgrains : grains m.val = 0 := by
          rw [grains, significand, if_pos (hzero ▸ binade_pos), hzero, Nat.zero_mul]
        simp only [toInt?, hgrains, Nat.zero_mod, ↓reduceIte, reduceCtorEq] at hy
    | _ => cases h
  | _ => cases x <;> simp_all [agrees]

/-- Zero and one are the values of numbers. -/
theorem exists_toInt? (b : Bool) : ∃ x : Double, x.toInt? = some (if b then 1 else 0) := by
  cases b with
  | false => exact ⟨ofZero false, by decide +kernel⟩
  | true => exact ⟨ofMagnitude false (1023 * binade), by decide +kernel⟩

end Double

namespace Json

/-! ## Comparing by what is left -/

mutual

/-- Lists are compared element by element, objects name by name, strings as they are, and other
values by `R`. -/
def agreesBy (R : Json → Json → Bool) : Json → Json → Bool
  | .str s, b =>
    match b with
    | .str t => s == t
    | _ => false
  | .arr xs, b =>
    match b with
    | .arr ys => agreesElementsBy R xs ys
    | _ => false
  | .obj ms, b =>
    match b with
    | .obj ns => ms.length == ns.length && agreesMembersBy R ms ns
    | _ => false
  | a, b => R a b

/-- Lists are compared element by element. -/
def agreesElementsBy (R : Json → Json → Bool) : List Json → List Json → Bool
  | [], ys => ys.isEmpty
  | x :: xs, ys =>
    match ys with
    | [] => false
    | y :: ys => agreesBy R x y && agreesElementsBy R xs ys

/-- Each of the members is compared with the member of the same name in the other object. -/
def agreesMembersBy (R : Json → Json → Bool) :
    List (WideText × Json) → List (WideText × Json) → Bool
  | [], _ => true
  | (k, x) :: ms, ns =>
    (match Keyed.get? ns k with
      | some y => agreesBy R x y
      | none => false) && agreesMembersBy R ms ns

end

variable {R S : Json → Json → Bool} {a b : Json}

theorem agreesElementsBy_iff {xs ys : List Json} :
    agreesElementsBy R xs ys = true ↔ List.Forall₂ (fun x y => agreesBy R x y = true) xs ys := by
  induction xs generalizing ys with
  | nil => cases ys <;> simp [agreesElementsBy]
  | cons x xs ih =>
    cases ys with
    | nil => simp [agreesElementsBy]
    | cons y ys => simp [agreesElementsBy, ih]

theorem agreesMembersBy_iff {ms ns : List (WideText × Json)} :
    agreesMembersBy R ms ns = true ↔
      ∀ m ∈ ms, ∃ y, Keyed.get? ns m.1 = some y ∧ agreesBy R m.2 y = true := by
  induction ms with
  | nil => simp [agreesMembersBy]
  | cons m ms ih =>
    obtain ⟨k, x⟩ := m
    rw [agreesMembersBy, Bool.and_eq_true_iff, ih, List.forall_mem_cons]
    refine and_congr_left fun _ => ?_
    cases Keyed.get? ns k <;> simp

@[simp] theorem agreesBy_str {s : WideText} : agreesBy R (.str s) b = true ↔ b = .str s := by
  cases b with
  | str t => rw [agreesBy, beq_iff_eq, Json.str.injEq, eq_comm]
  | _ => simp [agreesBy]

theorem agreesBy_arr {xs : List Json} :
    agreesBy R (.arr xs) b = true ↔
      ∃ ys, b = .arr ys ∧ List.Forall₂ (fun x y => agreesBy R x y = true) xs ys := by
  cases b <;> simp [agreesBy, agreesElementsBy_iff]

theorem agreesBy_obj {ms : List (WideText × Json)} :
    agreesBy R (.obj ms) b = true ↔ ∃ ns, b = .obj ns ∧ ms.length = ns.length ∧
      ∀ m ∈ ms, ∃ y, Keyed.get? ns m.1 = some y ∧ agreesBy R m.2 y = true := by
  cases b <;> simp [agreesBy, agreesMembersBy_iff]

/-! ## Laws -/

/-- What is neither a string nor a list nor an object. -/
def isPlain : Json → Bool
  | .str _ | .arr _ | .obj _ => false
  | _ => true

theorem agreesBy_plain (h : a.isPlain = true) : agreesBy R a b = R a b := by
  cases a <;> first | rfl | cases h

/-- A comparison of plain values that is an equivalence but for transitivity. -/
structure Compares (R : Json → Json → Bool) : Prop where
  refl : ∀ a, a.isPlain = true → R a a = true
  symm : ∀ a b, R a b = true → R b a = true
  plain : ∀ a b, a.isPlain = true → R a b = true → b.isPlain = true

/-- Without repeated names a value compares with itself. -/
theorem agreesBy_refl (hR : Compares R) (h : a.All HasNames) : agreesBy R a a = true := by
  induction a using induct with
  | null | bool | int | number => exact hR.refl _ rfl
  | str s => exact agreesBy_str.mpr rfl
  | arr js ih =>
    refine agreesBy_arr.mpr ⟨js, rfl, List.forall₂_same.mpr fun j hj => ih j hj ?_⟩
    exact (all_arr.mp h).2 j hj
  | obj ms ih =>
    obtain ⟨hnames, hmembers⟩ := all_obj.mp h
    refine agreesBy_obj.mpr ⟨ms, rfl, rfl, fun m hm => ⟨m.2, ?_, ih m hm (hmembers m hm)⟩⟩
    exact Keyed.get?_of_mem hnames hm

/-- Values that compare also compare the other way round. -/
theorem agreesBy_symm (hR : Compares R) (ha : a.All HasNames) (hb : b.All HasNames)
    (h : agreesBy R a b = true) : agreesBy R b a = true := by
  induction a using induct generalizing b with
  | null | bool | int | number =>
    rw [agreesBy_plain rfl] at h
    rw [agreesBy_plain (hR.plain _ _ rfl h)]
    exact hR.symm _ _ h
  | str s =>
    rw [agreesBy_str.mp h]
    exact agreesBy_str.mpr rfl
  | arr js ih =>
    obtain ⟨ys, rfl, hys⟩ := agreesBy_arr.mp h
    obtain ⟨hlength, hzip⟩ := List.forall₂_iff_zip.mp hys
    refine agreesBy_arr.mpr ⟨js, rfl, List.Forall₂.flip (List.forall₂_iff_zip.mpr ⟨hlength, ?_⟩)⟩
    intro x y hxy
    obtain ⟨hx, hy⟩ := List.of_mem_zip hxy
    exact ih x hx ((all_arr.mp ha).2 x hx) ((all_arr.mp hb).2 y hy) (hzip hxy)
  | obj ms ih =>
    obtain ⟨ns, rfl, hlength, hmembers⟩ := agreesBy_obj.mp h
    obtain ⟨hms, ha⟩ := all_obj.mp ha
    obtain ⟨hns, hb⟩ := all_obj.mp hb
    -- as many distinct names, and all of them among the others: so they are the same names
    have hnames : Keyed.keys ns ⊆ Keyed.keys ms := by
      have hsub : Keyed.keys ms ⊆ Keyed.keys ns := by
        intro k hk
        obtain ⟨m, hm, rfl⟩ := List.mem_map.mp hk
        obtain ⟨y, hy, -⟩ := hmembers m hm
        exact List.mem_map.mpr ⟨_, Keyed.mem_of_get? hy, rfl⟩
      exact ((hms.subperm hsub).perm_of_length_le (by simp [Keyed.keys, hlength])).symm.subset
    refine agreesBy_obj.mpr ⟨ms, rfl, hlength.symm, fun n hn => ?_⟩
    obtain ⟨m, hm, hmn⟩ := List.mem_map.mp (hnames (List.mem_map_of_mem hn))
    obtain ⟨y, hy, hagrees⟩ := hmembers m hm
    have hyn : y = n.2 := by
      have hn' : Keyed.get? ns m.1 = some n.2 := hmn ▸ Keyed.get?_of_mem hns hn
      exact Option.some.inj (hy.symm.trans hn')
    exact ⟨m.2, hmn ▸ Keyed.get?_of_mem hms hm, ih m hm (ha m hm) (hb n hn) (hyn ▸ hagrees)⟩

/-- A comparison that implies another one on plain values with `P` implies it on values that are made
of such values. -/
theorem agreesBy_mono {P : Json → Prop} (hRS : ∀ a b, P b → R a b = true → S a b = true)
    (hb : b.All P) (h : agreesBy R a b = true) : agreesBy S a b = true := by
  induction a using induct generalizing b with
  | null | bool | int | number =>
    rw [agreesBy_plain rfl] at h ⊢
    exact hRS _ _ hb.self h
  | str s => exact agreesBy_str.mpr (agreesBy_str.mp h)
  | arr js ih =>
    obtain ⟨ys, rfl, hys⟩ := agreesBy_arr.mp h
    obtain ⟨hlength, hzip⟩ := List.forall₂_iff_zip.mp hys
    refine agreesBy_arr.mpr ⟨ys, rfl, List.forall₂_iff_zip.mpr ⟨hlength, fun hxy => ?_⟩⟩
    obtain ⟨hx, hy⟩ := List.of_mem_zip hxy
    exact ih _ hx ((all_arr.mp hb).2 _ hy) (hzip hxy)
  | obj ms ih =>
    obtain ⟨ns, rfl, hlength, hmembers⟩ := agreesBy_obj.mp h
    refine agreesBy_obj.mpr ⟨ns, rfl, hlength, fun m hm => ?_⟩
    obtain ⟨y, hy, hagrees⟩ := hmembers m hm
    exact ⟨y, hy, ih m hm ((all_obj.mp hb).2 _ (Keyed.mem_of_get? hy)) hagrees⟩

/-! ## Agreement -/

theorem agrees_eq : a.agrees b = agreesBy agreesScalar a b := by
  induction a using induct generalizing b with
  | null | bool | int | number => rfl
  | str s => cases b <;> rfl
  | arr js ih =>
    have helements : ∀ ys, agreesElements js ys = agreesElementsBy agreesScalar js ys := by
      induction js with
      | nil => exact fun _ => rfl
      | cons j js ihjs =>
        rw [List.forall_mem_cons] at ih
        intro ys
        cases ys with
        | nil => rfl
        | cons y ys => rw [agreesElements, agreesElementsBy, ih.1, ihjs ih.2]
    cases b with
    | arr ys => exact helements ys
    | _ => rfl
  | obj ms ih =>
    have hmembers : ∀ ns, agreesMembers ms ns = agreesMembersBy agreesScalar ms ns := by
      intro ns
      induction ms with
      | nil => rfl
      | cons m ms ihms =>
        rw [List.forall_mem_cons] at ih
        rw [agreesMembers, agreesMembersBy, ihms ih.2]
        cases Keyed.get? ns m.1 with
        | none => rfl
        | some y => exact congrArg (· && _) ih.1
    cases b with
    | obj ns => exact congrArg (_ && ·) (hmembers ns)
    | _ => rfl

/-- Agreement of plain values is by the numbers that they stand for. -/
theorem compares_agreesScalar : Compares agreesScalar where
  refl a ha := by
    cases a with
    | null => rfl
    | bool b => simp [agreesScalar, whole?]
    | int n => simp [agreesScalar, whole?]
    | number x => exact Double.agrees_refl x
    | _ => cases ha
  symm a b h := by
    cases a <;> cases b <;> simp_all [agreesScalar, whole?, Double.agrees_comm]
  plain a b ha h := by
    cases b <;> cases a <;> simp_all [agreesScalar, whole?, isPlain]

/-- Without repeated names a value agrees with itself. -/
theorem agrees_refl (h : a.All HasNames) : a.agrees a = true :=
  agrees_eq ▸ agreesBy_refl compares_agreesScalar h

theorem agrees_symm (ha : a.All HasNames) (hb : b.All HasNames) (h : a.agrees b = true) :
    b.agrees a = true := by
  rw [agrees_eq] at h ⊢
  exact agreesBy_symm compares_agreesScalar ha hb h

/-! ## Sameness -/

/-- Two plain values are the same: of one kind and with one content. -/
def isSamePlain : Json → Json → Bool
  | .null, .null => true
  | .bool b, .bool c => b == c
  | .int m, .int n => m == n
  | .number x, .number y => x == y
  | _, _ => false

/-- Values that differ in nothing but the order of members. -/
def same (a b : Json) : Bool := agreesBy isSamePlain a b

theorem compares_isSamePlain : Compares isSamePlain where
  refl a ha := by
    cases a <;> simp_all [isSamePlain, isPlain]
  symm a b h := by
    cases a <;> cases b <;> simp_all [isSamePlain]
  plain a b ha h := by
    cases b <;> cases a <;> simp_all [isSamePlain, isPlain]

/-- Without repeated names a value is the same as itself. -/
theorem same_refl (h : a.All HasNames) : a.same a = true := agreesBy_refl compares_isSamePlain h

/-- A value that stands for no number that another value stands for. -/
def IsFirm : Json → Prop
  | .bool _ => False
  | .int n => ∀ x : Double, x.toInt? ≠ some n
  | .number x => x.toInt? = none
  | _ => True

/-- What agrees with a plain value that is firm is the same. -/
theorem isSamePlain_of_agrees (hb : b.IsFirm) (h : agreesScalar a b = true) :
    isSamePlain a b = true := by
  cases b with
  | null => cases a <;> simp_all [agreesScalar, whole?, isSamePlain]
  | bool c => cases hb
  | int n =>
    cases a with
    | int m =>
      have hnm : n = m := by simpa [agreesScalar, whole?] using h
      exact beq_iff_eq.mpr hnm.symm
    | number x => exact absurd (eq_of_beq h) (hb x)
    | bool c =>
      obtain ⟨x, hx⟩ := Double.exists_toInt? c
      have hn : n = if c then 1 else 0 := by simpa [agreesScalar, whole?] using h
      exact absurd (hn ▸ hx) (hb x)
    | _ => simp [agreesScalar, whole?] at h
  | number x =>
    cases a with
    | number y => exact beq_iff_eq.mpr (Double.eq_of_agrees hb h)
    | _ => simp_all [agreesScalar, whole?, Double.isInteger, IsFirm]
  | _ => cases a <;> simp_all [agreesScalar, whole?]

/-- What agrees with a firm value is the same. -/
theorem same_of_agrees (hb : b.All IsFirm) (h : a.agrees b = true) : a.same b = true := by
  rw [agrees_eq] at h
  exact agreesBy_mono (fun _ _ => isSamePlain_of_agrees) hb h

end Json

end AliasGate
