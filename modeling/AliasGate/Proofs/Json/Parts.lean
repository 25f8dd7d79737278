import AliasGate.Json.Basic
import AliasGate.Proofs.Keyed
import AliasGate.Proofs.Text.CodePoint

/-!
# Parts of values

What holds of a value and of all values inside it.

* `Json.induct`: induction over values, with one case for each kind of value.
* `Json.All P`: a value and all values inside it have `P`.
* `Json.levels_arr_le`, `Json.levels_obj_le`: how deep lists and objects nest.
* `Json.nullNonFinite`: a value without its numbers that are not finite. Values with finite numbers
  only are the same without them (`Json.nullNonFinite_eq_self_iff`).
* `Json.joinPairs_eq_self`: values that hold texts only have no surrogates to join.
-/

namespace AliasGate

namespace Json

/-! ## Induction -/

mutual

/-- Induction over values: of lists and objects, what holds of the values directly inside. -/
theorem induct {P : Json → Prop} (null : P .null) (bool : ∀ b, P (.bool b)) (int : ∀ n, P (.int n))
    (number : ∀ x, P (.number x)) (str : ∀ s, P (.str s))
    (arr : ∀ js, (∀ j ∈ js, P j) → P (.arr js)) (obj : ∀ ms, (∀ m ∈ ms, P m.2) → P (.obj ms)) :
    ∀ j, P j
  | .null => null
  | .bool b => bool b
  | .int n => int n
  | .number x => number x
  | .str s => str s
  | .arr js => arr js (inductElements null bool int number str arr obj js)
  | .obj ms => obj ms (inductMembers null bool int number str arr obj ms)

theorem inductElements {P : Json → Prop} (null : P .null) (bool : ∀ b, P (.bool b))
    (int : ∀ n, P (.int n)) (number : ∀ x, P (.number x)) (str : ∀ s, P (.str s))
    (arr : ∀ js, (∀ j ∈ js, P j) → P (.arr js)) (obj : ∀ ms, (∀ m ∈ ms, P m.2) → P (.obj ms)) :
    ∀ js : List Json, ∀ j ∈ js, P j
  | [], _, h => absurd h List.not_mem_nil
  | j :: js, _, h =>
    (List.mem_cons.mp h).elim (fun h => h ▸ induct null bool int number str arr obj j)
      (inductElements null bool int number str arr obj js _)

theorem inductMembers {P : Json → Prop} (null : P .null) (bool : ∀ b, P (.bool b))
    (int : ∀ n, P (.int n)) (number : ∀ x, P (.number x)) (str : ∀ s, P (.str s))
    (arr : ∀ js, (∀ j ∈ js, P j) → P (.arr js)) (obj : ∀ ms, (∀ m ∈ ms, P m.2) → P (.obj ms)) :
    ∀ ms : List (WideText × Json), ∀ m ∈ ms, P m.2
  | [], _, h => absurd h List.not_mem_nil
  | (_, j) :: ms, _, h =>
    (List.mem_cons.mp h).elim (fun h => h ▸ induct null bool int number str arr obj j)
      (inductMembers null bool int number str arr obj ms _)

end

/-! ## Parts -/

mutual

/-- A value and all values inside it. -/
def parts : Json → List Json
  | .arr js => .arr js :: partsElements js
  | .obj ms => .obj ms :: partsMembers ms
  | j => [j]

/-- The parts of the elements of a list. -/
def partsElements : List Json → List Json
  | [] => []
  | j :: js => j.parts ++ partsElements js

/-- The parts of the members of an object. -/
def partsMembers : List (WideText × Json) → List Json
  | [] => []
  | (_, j) :: ms => j.parts ++ partsMembers ms

end

/-- The value and all values inside it have a property. -/
def All (P : Json → Prop) (j : Json) : Prop := ∀ x ∈ j.parts, P x

variable {P Q : Json → Prop}

theorem mem_partsElements {js : List Json} {x : Json} :
    x ∈ partsElements js ↔ ∃ j ∈ js, x ∈ j.parts := by
  induction js with
  | nil => simp [partsElements]
  | cons j js ih => simp [partsElements, ih]

theorem mem_partsMembers {ms : List (WideText × Json)} {x : Json} :
    x ∈ partsMembers ms ↔ ∃ m ∈ ms, x ∈ m.2.parts := by
  induction ms with
  | nil => simp [partsMembers]
  | cons m ms ih => simp [partsMembers, ih]

theorem all_arr {js : List Json} : All P (.arr js) ↔ P (.arr js) ∧ ∀ j ∈ js, All P j := by
  simp only [All, parts, List.forall_mem_cons, mem_partsElements]
  exact and_congr_right fun _ => ⟨fun h j hj x hx => h x ⟨j, hj, hx⟩,
    fun h x ⟨j, hj, hx⟩ => h j hj x hx⟩

theorem all_obj {ms : List (WideText × Json)} :
    All P (.obj ms) ↔ P (.obj ms) ∧ ∀ m ∈ ms, All P m.2 := by
  simp only [All, parts, List.forall_mem_cons, mem_partsMembers]
  exact and_congr_right fun _ => ⟨fun h m hm x hx => h x ⟨m, hm, hx⟩,
    fun h x ⟨m, hm, hx⟩ => h m hm x hx⟩

@[simp] theorem all_null : All P .null ↔ P .null := List.forall_mem_singleton

@[simp] theorem all_bool {b : Bool} : All P (.bool b) ↔ P (.bool b) := List.forall_mem_singleton

@[simp] theorem all_int {n : Int} : All P (.int n) ↔ P (.int n) := List.forall_mem_singleton

@[simp] theorem all_number {x : Double} : All P (.number x) ↔ P (.number x) :=
  List.forall_mem_singleton

@[simp] theorem all_str {s : WideText} : All P (.str s) ↔ P (.str s) := List.forall_mem_singleton

theorem All.self {j : Json} (h : All P j) : P j := h j (by cases j <;> exact List.mem_cons_self)

theorem All.mono {j : Json} (h : All P j) (hPQ : ∀ x, P x → Q x) : All Q j := fun x hx =>
  hPQ x (h x hx)

/-! ## Levels -/

section Levels

variable {countsEmpty : Bool} {js : List Json} {ms : List (WideText × Json)} {n : Nat}

theorem levelsElements_le : levelsElements countsEmpty js ≤ n ↔
    countsEmpty.toNat ≤ n ∧ ∀ j ∈ js, j.levels countsEmpty + 1 ≤ n := by
  induction js with
  | nil => simp [levelsElements]
  | cons j js ih => rw [levelsElements, Nat.max_le, ih, List.forall_mem_cons, and_left_comm]

theorem levelsMembers_le : levelsMembers countsEmpty ms ≤ n ↔
    countsEmpty.toNat ≤ n ∧ ∀ m ∈ ms, m.2.levels countsEmpty + 1 ≤ n := by
  induction ms with
  | nil => simp [levelsMembers]
  | cons m ms ih =>
    obtain ⟨k, j⟩ := m
    rw [levelsMembers, Nat.max_le, ih, List.forall_mem_cons, and_left_comm]

/-- How deep a list nests is decided by its elements. -/
theorem levels_arr_le : (Json.arr js).levels countsEmpty ≤ n ↔
    countsEmpty.toNat ≤ n ∧ ∀ j ∈ js, j.levels countsEmpty + 1 ≤ n := by
  rw [levels]
  exact levelsElements_le

/-- How deep an object nests is decided by its members. -/
theorem levels_obj_le : (Json.obj ms).levels countsEmpty ≤ n ↔
    countsEmpty.toNat ≤ n ∧ ∀ m ∈ ms, m.2.levels countsEmpty + 1 ≤ n := by
  rw [levels]
  exact levelsMembers_le

end Levels

/-! ## Kinds of parts -/

/-- A number is finite; other values are no numbers. -/
def IsFinite : Json → Prop
  | .number (.finite _ _) => True
  | .number _ => False
  | _ => True

/-- A string or the names of an object are texts. -/
def HasText : Json → Prop
  | .str s => WideText.isText s = true
  | .obj ms => ∀ m ∈ ms, WideText.isText m.1 = true
  | _ => True

/-- No name of an object stands twice. -/
def HasNames : Json → Prop
  | .obj ms => (Keyed.keys ms).Nodup
  | _ => True

instance : DecidablePred IsFinite
  | .number (.finite _ _) => .isTrue trivial
  | .number (.infinite _) | .number .nan => .isFalse id
  | .null | .bool _ | .int _ | .str _ | .arr _ | .obj _ => .isTrue trivial

instance : DecidablePred HasText
  | .str s => inferInstanceAs (Decidable (WideText.isText s = true))
  | .obj ms => inferInstanceAs (Decidable (∀ m ∈ ms, WideText.isText m.1 = true))
  | .null | .bool _ | .int _ | .number _ | .arr _ => .isTrue trivial

instance [DecidablePred P] (j : Json) : Decidable (All P j) :=
  inferInstanceAs (Decidable (∀ x ∈ j.parts, P x))

theorem map_eq_self_iff {α : Type} {f : α → α} {xs : List α} : xs.map f = xs ↔ ∀ x ∈ xs, f x = x := by
  have h : xs.map f = xs.map id ↔ ∀ x ∈ xs, f x = id x := List.map_inj_left
  rwa [List.map_id] at h

/-! ## Numbers that are not finite -/

mutual

/-- The value with `null` in place of numbers that are not finite. -/
def nullNonFinite : Json → Json
  | .number (.finite negative m) => .number (.finite negative m)
  | .number _ => .null
  | .arr js => .arr (nullNonFiniteElements js)
  | .obj ms => .obj (nullNonFiniteMembers ms)
  | j => j

/-- The elements with `null` in place of numbers that are not finite. -/
def nullNonFiniteElements : List Json → List Json
  | [] => []
  | j :: js => j.nullNonFinite :: nullNonFiniteElements js

/-- The members with `null` in place of numbers that are not finite. -/
def nullNonFiniteMembers : List (WideText × Json) → List (WideText × Json)
  | [] => []
  | (k, j) :: ms => (k, j.nullNonFinite) :: nullNonFiniteMembers ms

end

theorem nullNonFiniteElements_eq (js : List Json) :
    nullNonFiniteElements js = js.map nullNonFinite := by
  induction js with
  | nil => rfl
  | cons j js ih => rw [nullNonFiniteElements, ih, List.map_cons]

theorem nullNonFiniteMembers_eq (ms : List (WideText × Json)) :
    nullNonFiniteMembers ms = ms.map fun m => (m.1, m.2.nullNonFinite) := by
  induction ms with
  | nil => rfl
  | cons m ms ih => rw [nullNonFiniteMembers, ih, List.map_cons]

theorem keys_nullNonFiniteMembers (ms : List (WideText × Json)) :
    Keyed.keys (nullNonFiniteMembers ms) = Keyed.keys ms := by
  rw [nullNonFiniteMembers_eq]
  simp [Keyed.keys]

/-- A value is the same without its numbers that are not finite exactly if there are none. -/
theorem nullNonFinite_eq_self_iff {j : Json} : j.nullNonFinite = j ↔ All IsFinite j := by
  induction j using induct with
  | null | bool | int | str => simp [nullNonFinite, IsFinite]
  | number x => cases x <;> simp [nullNonFinite, IsFinite]
  | arr js ih =>
    have helements : nullNonFiniteElements js = js ↔ ∀ j ∈ js, j.nullNonFinite = j := by
      rw [nullNonFiniteElements_eq, map_eq_self_iff]
    rw [all_arr, nullNonFinite, Json.arr.injEq, helements, and_iff_right (by trivial)]
    exact forall₂_congr ih
  | obj ms ih =>
    have hmembers : nullNonFiniteMembers ms = ms ↔ ∀ m ∈ ms, m.2.nullNonFinite = m.2 := by
      rw [nullNonFiniteMembers_eq, map_eq_self_iff]
      exact forall₂_congr fun m _ => by simp [Prod.ext_iff]
    rw [all_obj, nullNonFinite, Json.obj.injEq, hmembers, and_iff_right (by trivial)]
    exact forall₂_congr ih

/-! ## Surrogates -/

theorem joinPairsElements_eq (js : List Json) : joinPairsElements js = js.map joinPairs := by
  induction js with
  | nil => rfl
  | cons j js ih => rw [joinPairsElements, ih, List.map_cons]

theorem joinPairsMembers_eq (ms : List (WideText × Json)) :
    joinPairsMembers ms = ms.map fun m => (WideText.joinPairs m.1, m.2.joinPairs) := by
  induction ms with
  | nil => rfl
  | cons m ms ih => rw [joinPairsMembers, ih, List.map_cons]

/-- A value that holds texts only, under distinct names, has no surrogates to join. -/
theorem joinPairs_eq_self {j : Json} (htext : All HasText j) (hnames : All HasNames j) :
    j.joinPairs = j := by
  induction j using induct with
  | null | bool | int | number => rfl
  | str s => exact congrArg Json.str (WideText.joinPairs_eq_self (all_str.mp htext))
  | arr js ih =>
    have htext := (all_arr.mp htext).2
    have hnames := (all_arr.mp hnames).2
    have helements : joinPairsElements js = js := by
      rw [joinPairsElements_eq, map_eq_self_iff]
      exact fun j hj => ih j hj (htext j hj) (hnames j hj)
    rw [joinPairs, helements]
  | obj ms ih =>
    obtain ⟨hkeys, htext⟩ := all_obj.mp htext
    obtain ⟨hnodup, hnames⟩ := all_obj.mp hnames
    have hmembers : joinPairsMembers ms = ms := by
      rw [joinPairsMembers_eq, map_eq_self_iff]
      exact fun m hm => Prod.ext (WideText.joinPairs_eq_self (hkeys m hm))
        (ih m hm (htext m hm) (hnames m hm))
    rw [joinPairs, hmembers, Keyed.ofPairs_of_nodup hnodup]

end Json

end AliasGate
