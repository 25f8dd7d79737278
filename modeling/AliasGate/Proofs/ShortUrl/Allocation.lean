import AliasGate.Proofs.Action
import AliasGate.Proofs.Route
import AliasGate.Proofs.ShortUrl.Store
import AliasGate.ShortUrl.Database
import Mathlib.Data.List.GetD

/-!
# Allocation in memory

What the operations of the database in memory do, and how the allocation of an id on it ends.

* `IdSource.IsRegular`: the ids of a script are what a generator of ids gives.
* `Database.perform_lookup` and the like: one equation for each operation in memory, and
  `Database.perform_allocateFresh_succ` for one drawn id.
* `Database.Allocation`: an agreeing short URL is used again, or a free id is drawn and the short URL
  is added under it, or no id is found, which is the server's fault, and the store stays as it was.
* `Database.allocate_allocation`: there are no other endings.
* `IdSource.upcoming`, `Database.allocate_error_iff`: an allocation fails exactly if the ids of all its
  draws are in use.
-/

namespace AliasGate

/-! ## Ids -/

namespace IdSource

/-- A text of the wanted length over the alphabet of ids. -/
def IsIdOf (length : Int) (id : Text) : Prop := (id.length : Int) = length ∧ ∀ c ∈ id, c ∈ alphabet

/-- The ids still in the script have the wanted length and are over the alphabet. -/
def IsRegular (length : Int) (ids : IdSource) : Prop := ∀ id ∈ ids.script, IsIdOf length id

theorem IsRegular.of_subset {length : Int} {ids ids' : IdSource} (h : ids.IsRegular length)
    (hsub : ids'.script ⊆ ids.script) : ids'.IsRegular length :=
  fun id hid => h id (hsub hid)

theorem digit_mem_alphabet (n : Nat) : digit n ∈ alphabet := by
  have hlt : n % alphabet.length < alphabet.length := Nat.mod_lt _ (by decide)
  rw [digit, List.getD_eq_getElem _ _ hlt]
  exact List.getElem_mem hlt

theorem isIdOf_digits (size n : Nat) : IsIdOf size (digits size n) := by
  induction size generalizing n with
  | zero => exact ⟨rfl, fun c hc => absurd hc List.not_mem_nil⟩
  | succ size ih =>
    obtain ⟨hlength, hchars⟩ := ih (n / alphabet.length)
    refine ⟨by simp [digits, Int.ofNat_inj.mp hlength], fun c hc => ?_⟩
    rcases List.mem_append.mp hc with hc | hc
    · exact hchars c hc
    · rw [List.mem_singleton.mp hc]
      exact digit_mem_alphabet n

/-- Over the alphabet and not empty, a text has the form of an id. -/
theorem IsIdOf.isId {length : Int} {id : Text} (h : IsIdOf length id) (hlength : 0 < length) :
    Target.isId id = true := by
  have halphabet : ∀ c ∈ alphabet, Target.isIdChar c = true := List.all_eq_true.mp (by decide)
  refine Target.isId_iff.mpr ⟨fun hnil => ?_, fun c hc => halphabet c (h.2 c hc)⟩
  have hzero := h.1
  rw [hnil] at hzero
  exact absurd hlength (by simp [← hzero])

/-- A draw gives an id of the wanted length, or complains about that length. -/
theorem draw_cases (length : Int) (ids : IdSource) :
    (∃ id ids', (draw length).perform ids = (.ok id, ids') ∧ 0 < length ∧
      ids'.script ⊆ ids.script ∧ (ids.IsRegular length → IsIdOf length id)) ∨
    ∃ defect, (draw length).perform ids = (.error (.defect defect), ids) := by
  by_cases hlength : length ≤ 0
  · exact .inr ⟨.idLength length, by simp [draw, hlength]⟩
  · refine .inl ?_
    obtain ⟨script, next⟩ := ids
    cases script with
    | nil =>
      refine ⟨digits length.toNat next, ⟨[], next + 1⟩, by simp [draw, hlength], by omega,
        List.Subset.refl _, fun _ => ?_⟩
      have hsize : (length.toNat : Int) = length := Int.toNat_of_nonneg (by omega)
      exact hsize ▸ isIdOf_digits length.toNat next
    | cons id script =>
      exact ⟨id, ⟨script, next⟩, by simp [draw, hlength], by omega, List.subset_cons_self _ _,
        fun h => h id List.mem_cons_self⟩

theorem exists_draw {length : Int} (hlength : 0 < length) (ids : IdSource) :
    ∃ id ids', (draw length).perform ids = (.ok id, ids') := by
  obtain ⟨script, next⟩ := ids
  cases script with
  | nil => exact ⟨digits length.toNat next, ⟨[], next + 1⟩, by simp [draw, Int.not_le.mpr hlength]⟩
  | cons id script => exact ⟨id, ⟨script, next⟩, by simp [draw, Int.not_le.mpr hlength]⟩

/-- The ids that a number of draws give. -/
def upcoming (length : Int) : Nat → IdSource → List Text
  | 0, _ => []
  | draws + 1, ids =>
    match (draw length).perform ids with
    | (.ok id, ids) => id :: upcoming length draws ids
    | (.error _, _) => []

end IdSource

/-! ## Operations in memory -/

namespace Database

variable (healthy : Bool) (id : Text) (s : ShortUrl) (store : Store)

@[simp] theorem perform_lookup :
    ((inMemory healthy).lookup id).perform store = (.ok (store.lookup? id), store) := rfl

@[simp] theorem perform_find :
    ((inMemory healthy).find s).perform store = (.ok (store.idOf? s), store) := rfl

/-- What inserting in memory does. -/
theorem perform_inMemory_insert :
    ((inMemory healthy).insert id s).perform store =
      if id ∈ Keyed.keys store then (.error (.failure (.idInUse id)), store)
      else (.ok (), store ++ [(id, s)]) := by
  simp only [inMemory, Action.perform_bind, Action.perform_get, Action.andThen_ok, Store.insert]
  by_cases hused : id ∈ Keyed.keys store <;> simp [hused]

@[simp] theorem perform_delete (user image : Text) (chosen : Option Text) :
    ((inMemory healthy).delete user image chosen).perform store =
      (.ok (store.eraseCount user image chosen), store.erase user image chosen) := rfl

@[simp] theorem perform_isHealthy :
    (inMemory healthy).isHealthy.perform store = (.ok healthy, store) := rfl

end Database

/-! ## Allocation -/

namespace Database

variable {length : Int} {s : ShortUrl} {store : Store}

/-- An ending of an allocation for a short URL, on a store and a source of ids. -/
inductive Allocation (length : Int) (s : ShortUrl) (store : Store) (ids : IdSource) :
    Except Fault Text × Store × IdSource → Prop
  | reused {id : Text} (hfound : store.idOf? s = some id) :
    Allocation length s store ids (.ok id, store, ids)
  | added {id : Text} {ids' : IdSource} (hnew : store.idOf? s = none)
    (hfree : id ∉ Keyed.keys store) (hlength : 0 < length) (hscript : ids'.script ⊆ ids.script)
    (hid : ids.IsRegular length → IdSource.IsIdOf length id) :
    Allocation length s store ids (.ok id, store ++ [(id, s)], ids')
  | failed {fault : Fault} {ids' : IdSource} (hnew : store.idOf? s = none)
    (hscript : ids'.script ⊆ ids.script) (hstatus : fault.told.status = 500) :
    Allocation length s store ids (.error fault, store, ids')

/-- One draw: an id in use leads to the next draw, and under a free one the short URL is added. -/
theorem perform_allocateFresh_succ (healthy : Bool) {id : Text} {ids ids' : IdSource}
    (hdraw : (IdSource.draw length).perform ids = (.ok id, ids')) (draws : Nat) :
    ((inMemory healthy).allocateFresh length s (draws + 1)).perform (store, ids) =
      if id ∈ Keyed.keys store then
        ((inMemory healthy).allocateFresh length s draws).perform (store, ids')
      else (.ok id, store ++ [(id, s)], ids') := by
  simp only [allocateFresh, Action.perform_bind, onIds, onDatabase, Action.perform_onPart, hdraw,
    Action.andThen_ok, perform_lookup]
  by_cases hused : id ∈ Keyed.keys store
  · obtain ⟨t, hfound⟩ : ∃ t, store.lookup? id = some t := by
      apply Option.ne_none_iff_exists'.mp
      intro hnone
      exact (Keyed.get?_eq_none_iff _ _).mp hnone hused
    rw [hfound, if_pos hused]
  · have hfound : store.lookup? id = none := (Keyed.get?_eq_none_iff _ _).mpr hused
    simp [hfound, perform_inMemory_insert, hused]

/-- Drawing ids for a short URL with which none agrees. -/
theorem allocateFresh_allocation (healthy : Bool) (hnew : store.idOf? s = none) (draws : Nat)
    (ids : IdSource) : Allocation length s store ids
      (((inMemory healthy).allocateFresh length s draws).perform (store, ids)) := by
  induction draws generalizing ids with
  | zero => exact .failed hnew (List.Subset.refl _) rfl
  | succ draws ih =>
    rcases IdSource.draw_cases length ids with ⟨id, ids₁, hdraw, hlength, hscript, hid⟩ | ⟨d, hdraw⟩
    · rw [perform_allocateFresh_succ healthy hdraw]
      by_cases hused : id ∈ Keyed.keys store
      · rw [if_pos hused]
        -- the next draw starts from fewer ids of the script, which are as regular
        generalize hx : ((inMemory healthy).allocateFresh length s draws).perform (store, ids₁) = x
        have hrest := ih ids₁
        rw [hx] at hrest
        cases hrest with
        | reused hfound => rw [hnew] at hfound; cases hfound
        | added _ hfree _ hscript' hid' =>
          exact .added hnew hfree hlength (List.Subset.trans hscript' hscript)
            fun h => hid' (h.of_subset hscript)
        | failed _ hscript' hstatus =>
          exact .failed hnew (List.Subset.trans hscript' hscript) hstatus
      · rw [if_neg hused]
        exact .added hnew hused hlength hscript hid
    · simp only [allocateFresh, Action.perform_bind, onIds, Action.perform_onPart, hdraw,
        Action.andThen_error]
      exact .failed hnew (List.Subset.refl _) rfl

/-- What is found is used again, and otherwise ids are drawn. -/
theorem perform_allocate (healthy : Bool) (length : Int) (s : ShortUrl) (store : Store)
    (ids : IdSource) :
    ((inMemory healthy).allocate length s).perform (store, ids) =
      match store.idOf? s with
      | some id => (.ok id, store, ids)
      | none => ((inMemory healthy).allocateFresh length s maxDraws).perform (store, ids) := by
  simp only [allocate, Action.perform_bind, onDatabase, Action.perform_onPart, perform_find,
    Action.andThen_ok]
  cases store.idOf? s <;> rfl

/-- **Allocation in memory.** Whatever allocation does, it is one of its endings. -/
theorem allocate_allocation (healthy : Bool) (length : Int) (s : ShortUrl) (store : Store)
    (ids : IdSource) : Allocation length s store ids
      (((inMemory healthy).allocate length s).perform (store, ids)) := by
  rw [perform_allocate]
  cases hfound : store.idOf? s with
  | none => exact allocateFresh_allocation healthy hfound maxDraws ids
  | some id => exact .reused hfound

/-- Drawing ids of a positive length fails only for want of a free one. -/
theorem allocateFresh_error_iff (healthy : Bool) (hlength : 0 < length) (draws : Nat)
    (ids : IdSource) {fault : Fault} :
    (((inMemory healthy).allocateFresh length s draws).perform (store, ids)).1 = .error fault ↔
      fault = .failure .noFreeId ∧ ∀ id ∈ ids.upcoming length draws, id ∈ Keyed.keys store := by
  induction draws generalizing ids with
  | zero => simp [allocateFresh, IdSource.upcoming, eq_comm]
  | succ draws ih =>
    obtain ⟨id, ids₁, hdraw⟩ := IdSource.exists_draw hlength ids
    rw [perform_allocateFresh_succ healthy hdraw, IdSource.upcoming, hdraw]
    by_cases hused : id ∈ Keyed.keys store
    · simpa [hused] using ih ids₁
    · simp [hused]

/-- An allocation fails exactly if no short URL agrees and no draw gives a free id. -/
theorem allocate_error_iff (healthy : Bool) (hlength : 0 < length) (ids : IdSource)
    {fault : Fault} :
    (((inMemory healthy).allocate length s).perform (store, ids)).1 = .error fault ↔
      fault = .failure .noFreeId ∧ store.idOf? s = none ∧
        ∀ id ∈ ids.upcoming length maxDraws, id ∈ Keyed.keys store := by
  rw [perform_allocate]
  cases hfound : store.idOf? s with
  | none => simpa using allocateFresh_error_iff healthy hlength maxDraws ids
  | some id => simp

end Database

end AliasGate
