import AliasGate.Http.Request
import AliasGate.Proofs.Query.Arguments

/-!
# The URL of a request

A URL as a base and the fields of the query behind it.

* `Http.Request.url_eq`: the URL from its base and its fields.
* `Http.Request.fields_withFields`: a request with other fields in its query has those fields.
* `Http.Request.queryPairs_eq`: the names and values of a query, field by field.
-/

namespace AliasGate.Http.Request

/-- The URL without its query. -/
def base (r : Request) : Text := r.scheme ++ "://".toList ++ r.host ++ r.path

/-- The fields of the query, empty ones included; an empty query has none. -/
def fields (r : Request) : List Text :=
  match r.query with
  | [] => []
  | query => Text.fields '&' query

/-- The request with other fields in its query. -/
def withFields (r : Request) (fs : List Text) : Request := { r with query := Text.joined ['&'] fs }

theorem joined_fields (r : Request) : Text.joined ['&'] r.fields = r.query := by
  unfold fields
  split
  next h => rw [h]; rfl
  next => exact Text.joined_fields r.query

theorem not_mem_of_mem_fields {r : Request} {f : Text} (h : f ∈ r.fields) : '&' ∉ f := by
  unfold fields at h
  split at h
  · cases h
  · exact Text.not_mem_of_mem_fields h

theorem fields_eq_nil {r : Request} : r.fields = [] ↔ r.query = [] := by
  unfold fields
  split
  next h => simp [h]
  next h =>
    rw [Text.fields_eq_splitOn]
    exact iff_of_false (List.splitOn_ne_nil _ _) h

theorem url_eq (r : Request) :
    r.url = if r.fields = [] then r.base else r.base ++ '?' :: Text.joined ['&'] r.fields := by
  rw [joined_fields, url]
  split
  next h => rw [if_pos (fields_eq_nil.mpr h), base, List.append_nil]
  next h => rw [if_neg fun hf => h (fields_eq_nil.mp hf), base]

theorem queryPairs_eq (r : Request) : r.queryPairs = (Query.filled r.fields).map Query.read := by
  unfold queryPairs fields
  split
  next h => rw [h]; rfl
  next => exact Query.form_eq r.query

theorem fields_withFields {r : Request} {fs : List Text} (h : ∀ f ∈ fs, '&' ∉ f)
    (hne : ∃ f ∈ fs, f ≠ []) : (r.withFields fs).fields = fs := by
  have hfs : fs ≠ [] := by
    rintro rfl
    obtain ⟨f, hf, -⟩ := hne
    cases hf
  unfold fields withFields
  split
  next hnil =>
    dsimp only at hnil
    have hfields := Text.fields_joined h hfs
    rw [hnil] at hfields
    obtain ⟨f, hf, hfne⟩ := hne
    rw [← hfields, show Text.fields '&' ([] : Text) = [[]] from rfl, List.mem_singleton] at hf
    exact absurd hf hfne
  next => exact Text.fields_joined h hfs

/-! ## One field more -/

/-- The request with one field more at a position of its query. -/
def insertField (r : Request) (i : Nat) (f : Text) : Request := r.withFields (r.fields.insertIdx i f)

theorem exists_insertIdx {α : Type} {l : List α} {i : Nat} (h : i ≤ l.length) (a : α) :
    ∃ x y, l = x ++ y ∧ l.insertIdx i a = x ++ a :: y := by
  induction i generalizing l with
  | zero => exact ⟨[], l, rfl, rfl⟩
  | succ i ih =>
    cases l with
    | nil => exact absurd h (Nat.not_succ_le_zero i)
    | cons b l =>
      obtain ⟨x, y, hl, hinsert⟩ := ih (Nat.le_of_succ_le_succ h)
      exact ⟨b :: x, y, congrArg (b :: ·) hl, by rw [List.insertIdx_succ_cons, hinsert]; rfl⟩

section
variable {r : Request} {i : Nat} {f : Text} (hi : i ≤ r.fields.length) (hf : '&' ∉ f) (hne : f ≠ [])
include hi hf hne

/-- Where the field went. -/
theorem fields_insertField :
    ∃ x y, r.fields = x ++ y ∧ (r.insertField i f).fields = x ++ f :: y := by
  obtain ⟨x, y, hfields, hinsert⟩ := exists_insertIdx hi f
  refine ⟨x, y, hfields, ?_⟩
  rw [insertField, hinsert]
  refine fields_withFields (fun g hg => ?_) ⟨f, List.mem_append_right x List.mem_cons_self, hne⟩
  rcases List.mem_append.mp hg with hg | hg
  · exact not_mem_of_mem_fields (hfields ▸ List.mem_append_left y hg)
  · rcases List.mem_cons.mp hg with rfl | hg
    · exact hf
    · exact not_mem_of_mem_fields (hfields ▸ List.mem_append_right x hg)

theorem queryPairs_insertField :
    ∃ x y, r.queryPairs = x ++ y ∧ (r.insertField i f).queryPairs = x ++ Query.read f :: y := by
  obtain ⟨x, y, hfields, hinsert⟩ := fields_insertField hi hf hne
  refine ⟨(Query.filled x).map Query.read, (Query.filled y).map Query.read, ?_, ?_⟩
  · rw [queryPairs_eq, hfields, Query.filled, List.filter_append, List.map_append]
    rfl
  · have hfilled : Query.filled (x ++ f :: y) = Query.filled x ++ f :: Query.filled y := by
      rw [Query.filled, List.filter_append, List.filter_cons_of_pos (by simpa using hne)]
      rfl
    rw [queryPairs_eq, hinsert, hfilled, List.map_append, List.map_cons]

variable {name value : Text} (hread : Query.read f = (name, value))
include hread

/-- The other arguments are as they were. -/
theorem argument?_insertField_of_ne {other : Text} (hother : other ≠ name) :
    (r.insertField i f).argument? other = r.argument? other := by
  obtain ⟨x, y, hpairs, hinsert⟩ := queryPairs_insertField hi hf hne
  have hbeq : (other == name) = false := beq_eq_false_iff_ne.mpr hother
  simp only [argument?, Query.first?, hpairs, hinsert, hread, List.lookup_append, List.lookup_cons,
    hbeq]

/-- An argument of a new name is found. -/
theorem argument?_insertField_self (hnone : r.argument? name = none) :
    (r.insertField i f).argument? name = some value := by
  obtain ⟨x, y, hpairs, hinsert⟩ := queryPairs_insertField hi hf hne
  simp only [argument?, Query.first?, hpairs, List.lookup_append, Option.or_eq_none_iff] at hnone
  simp only [argument?, Query.first?, hinsert, hread, List.lookup_append, hnone.1,
    List.lookup_cons_self, Option.none_or]

/-- An argument that asks for no transformation changes none. -/
theorem transformations_insertField (hkey : Transformation.isKey name = false) :
    (r.insertField i f).transformations = r.transformations := by
  obtain ⟨x, y, hpairs, hinsert⟩ := queryPairs_insertField hi hf hne
  simp only [transformations, Transformation.ofQuery, hpairs, hinsert, hread, List.filter_append,
    List.filter_cons, hkey, Bool.false_and, Bool.false_eq_true, ↓reduceIte]

end

end AliasGate.Http.Request
