import AliasGate.Proofs.Query.Percent
import AliasGate.Proofs.Text.Fields
import AliasGate.Query.Argument

/-!
# Reading arguments

A query is read field by field, in either of its two readings.

* `Query.form_eq`, `Query.arguments_eq`: the two readings of a query.
* `Query.decode_joined`: decoding a query decodes its fields.
* `Query.read_name`, `Query.read_value`: the reading of one field as form data.
-/

namespace AliasGate.Query

/-- The name and the value of a field of form data. -/
def read (f : Text) : Text × Text :=
  (Percent.decodeForm (Text.cut '=' f).1, Percent.decodeForm ((Text.cut '=' f).2.getD []))

/-- The argument in a field, plus signs as they are. -/
def argument (f : Text) : Argument :=
  (Percent.decode (Text.cut '=' f).1, (Text.cut '=' f).2.map Percent.decode)

/-- The fields of a query that hold an argument. -/
def filled (fs : List Text) : List Text := fs.filter (· ≠ [])

theorem mem_filled {f : Text} {fs : List Text} : f ∈ filled fs ↔ f ∈ fs ∧ f ≠ [] := by
  simp [filled]

theorem form_eq (s : Text) : form s = (filled (Text.fields '&' s)).map read := by
  simp only [form, split, filled, List.map_map]
  rfl

theorem arguments_eq (s : Text) : arguments s = (filled (Text.fields '&' s)).map argument := by
  simp only [arguments, split, filled, List.map_map]
  rfl

theorem filled_fields_joined {fs : List Text} (h : ∀ f ∈ fs, '&' ∉ f) :
    filled (Text.fields '&' (Text.joined ['&'] fs)) = filled fs := by
  cases fs with
  | nil => rfl
  | cons f fs => rw [Text.fields_joined h (List.cons_ne_nil f fs)]

/-! ## One field -/

theorem read_name {name : Text} (h : '=' ∉ name) : read name = (Percent.decodeForm name, []) := by
  rw [read, Text.cut_of_not_mem h]
  rfl

theorem read_value {name : Text} (h : '=' ∉ name) (value : Text) :
    read (name ++ '=' :: value) = (Percent.decodeForm name, Percent.decodeForm value) := by
  rw [read, Text.cut_append h]
  rfl

/-- The argument of a field, written plainly, is the decoded field. -/
theorem writeArgument_argument (f : Text) : writeArgument id (argument f) = Percent.decode f := by
  rcases Text.cut_cases '=' f with ⟨-, hcut⟩ | ⟨name, value, rfl, -, hcut⟩
  · rw [argument, hcut]
    rfl
  · rw [argument, hcut, Percent.decode_append (by decide)]
    rfl

/-! ## Decoded fields -/

theorem decode_joined (fs : List Text) :
    Percent.decode (Text.joined ['&'] fs) = Text.joined ['&'] (fs.map Percent.decode) := by
  induction fs with
  | nil => rfl
  | cons f fs ih =>
    cases fs with
    | nil =>
      rw [List.map_singleton]
      exact congrArg _ List.intercalate_singleton |>.trans List.intercalate_singleton.symm
    | cons g fs =>
      have hmap : Text.joined ['&'] ((f :: g :: fs).map Percent.decode) = Percent.decode f ++
          (['&'] ++ Text.joined ['&'] ((g :: fs).map Percent.decode)) :=
        Text.joined_cons_cons _ _ _ _
      rw [Text.joined_cons_cons, List.singleton_append, Percent.decode_append (by decide), ih, hmap,
        List.singleton_append]

theorem filled_map_decode (fs : List Text) :
    filled (fs.map Percent.decode) = (filled fs).map Percent.decode := by
  have hnil : ∀ f : Text, Percent.decode f ≠ [] ↔ f ≠ [] := fun f =>
    not_congr ⟨Percent.decode_eq_nil, fun h => by rw [h]; rfl⟩
  simp only [filled, List.filter_map, Function.comp_def, hnil]

theorem mem_arguments {a : Argument} {query : Text} (h : a ∈ arguments query) :
    ∃ f ∈ filled (Text.fields '&' query), argument f = a := by
  rw [arguments_eq] at h
  exact List.mem_map.mp h

/-- Every argument has a character. -/
theorem written_ne_nil {a : Argument} {query : Text} (h : a ∈ arguments query) :
    writeArgument id a ≠ [] := by
  obtain ⟨f, hf, rfl⟩ := mem_arguments h
  rw [writeArgument_argument]
  exact fun hnil => (mem_filled.mp hf).2 (Percent.decode_eq_nil hnil)

/-! ## Names -/

/-- The pair that an argument stands for: without a value it has the empty one. -/
def pair (a : Argument) : Text × Text := (a.1, a.2.getD [])

/-- The arguments of other names. -/
def others {α : Type} (name : Text) (args : List (Text × α)) : List (Text × α) :=
  args.filter (·.1 ≠ name)

theorem others_cons {α : Type} (name : Text) (a : Text × α) (args : List (Text × α)) :
    others name (a :: args) = if a.1 = name then others name args else a :: others name args := by
  by_cases h : a.1 = name <;> simp [others, h]

end AliasGate.Query
