import AliasGate.Proofs.Query.Arguments

/-!
# Encoded arguments

A query in which every name and every value is encoded is read as the arguments that were written, in
either of the two readings.

* `Query.mem_encoded`: the characters of an encoded argument.
* `Query.argument_encoded`, `Query.read_encoded`: one argument is read back.
* `Query.arguments_encoded`, `Query.form_encoded`: so are all of them.
* `Query.form_eq_arguments`: without plus signs the two readings agree.
* `Query.encoded_form_canonical`: base and arguments are told by the encoded form of a URL, and every
  query has one.
-/

namespace AliasGate.Query

theorem decodeForm_encode (s : Text) : Percent.decodeForm (Percent.encode s) = s := by
  rw [Percent.decodeForm_eq_decode (Percent.not_mem_encode rfl (by decide) s),
    Percent.decode_encode]

/-! ## One argument -/

/-- An argument as it stands in an encoded query. -/
abbrev encoded (a : Argument) : Text := writeArgument Percent.encode a

/-- An encoded argument has no other special characters than percent signs and one equals sign. -/
theorem mem_encoded {a : Argument} {c : Char} (h : c ∈ encoded a) :
    Percent.isUnreserved c = true ∨ c = '%' ∨ c = '=' := by
  have hencode : ∀ {s : Text}, c ∈ Percent.encode s →
      Percent.isUnreserved c = true ∨ c = '%' ∨ c = '=' := fun hs =>
    (Percent.mem_encode hs).imp_right .inl
  obtain ⟨name, _ | v⟩ := a
  · exact hencode h
  · rcases List.mem_append.mp h with h | h
    · exact hencode h
    · rcases List.mem_cons.mp h with rfl | h
      · exact .inr (.inr rfl)
      · exact hencode h

theorem ampersand_not_mem_encoded (a : Argument) : '&' ∉ encoded a := by
  intro h
  rcases mem_encoded h with h | h | h <;> cases h

/-- Only what has neither a name nor a value is written as nothing. -/
theorem encoded_ne_nil {a : Argument} (h : a ≠ ([], none)) : encoded a ≠ [] := by
  obtain ⟨name, _ | v⟩ := a
  · intro hnil
    refine h ?_
    have hname := Percent.decode_encode name
    rw [show Percent.encode name = [] from hnil] at hname
    rw [← hname]
    rfl
  · simp [writeArgument]

/-- Unreserved characters stay as they are. -/
theorem encoded_of_unreserved {name value : Text} (hname : ∀ c ∈ name, Percent.isUnreserved c = true)
    (hvalue : ∀ c ∈ value, Percent.isUnreserved c = true) :
    encoded (name, some value) = name ++ '=' :: value := by
  rw [encoded, writeArgument, Percent.encode_eq_self hname, Percent.encode_eq_self hvalue]

theorem equals_not_mem_encode (s : Text) : '=' ∉ Percent.encode s :=
  Percent.not_mem_encode rfl (by decide) s

theorem argument_encoded (a : Argument) : argument (encoded a) = a := by
  obtain ⟨name, _ | v⟩ := a
  · rw [encoded, writeArgument, argument, Text.cut_of_not_mem (equals_not_mem_encode name),
      Percent.decode_encode]
    rfl
  · rw [encoded, writeArgument, argument, Text.cut_append (equals_not_mem_encode name),
      Percent.decode_encode, Option.map_some, Percent.decode_encode]

theorem read_encoded (a : Argument) : read (encoded a) = pair a := by
  obtain ⟨name, _ | v⟩ := a
  · rw [encoded, writeArgument, read_name (equals_not_mem_encode name), decodeForm_encode]
    rfl
  · rw [encoded, writeArgument, read_value (equals_not_mem_encode name), decodeForm_encode,
      decodeForm_encode]
    rfl

/-! ## Queries -/

section
variable {args : List Argument} (h : ∀ a ∈ args, a ≠ ([], none))
include h

theorem filled_encoded :
    filled (Text.fields '&' (Text.joined ['&'] (args.map encoded))) = args.map encoded := by
  have hamp : ∀ f ∈ args.map encoded, '&' ∉ f := by
    intro f hf
    obtain ⟨a, -, rfl⟩ := List.mem_map.mp hf
    exact ampersand_not_mem_encoded a
  rw [filled_fields_joined hamp]
  refine List.filter_eq_self.mpr fun f hf => ?_
  obtain ⟨a, ha, rfl⟩ := List.mem_map.mp hf
  exact decide_eq_true (encoded_ne_nil (h a ha))

/-- The arguments of an encoded query. -/
theorem arguments_encoded : arguments (Text.joined ['&'] (args.map encoded)) = args := by
  rw [arguments_eq, filled_encoded h, List.map_map]
  exact (List.map_congr_left fun a _ => argument_encoded a).trans (List.map_id args)

/-- They are the same as form data. -/
theorem form_encoded : form (Text.joined ['&'] (args.map encoded)) = args.map pair := by
  rw [form_eq, filled_encoded h, List.map_map]
  exact List.map_congr_left fun a _ => read_encoded a

omit h in
/-- An encoded query has no plus signs. -/
theorem plus_not_mem_joined : '+' ∉ Text.joined ['&'] (args.map encoded) := by
  induction args with
  | nil => exact List.not_mem_nil
  | cons a args ih =>
    have ha : '+' ∉ encoded a := by
      intro h
      rcases mem_encoded h with h | h | h <;> cases h
    cases args with
    | nil => rwa [List.map_singleton, Text.joined, List.intercalate_singleton]
    | cons b args =>
      rw [List.map_cons, List.map_cons, Text.joined_cons_cons]
      simp only [List.mem_append, List.mem_singleton, not_or]
      exact ⟨ha, by decide, ih⟩

end

/-- A query without plus signs means the same as form data. -/
theorem form_eq_arguments {query : Text} (h : '+' ∉ query) :
    form query = (arguments query).map pair := by
  rw [form_eq, arguments_eq, List.map_map]
  refine List.map_congr_left fun f hf => ?_
  have hplus : '+' ∉ f := fun hmem =>
    h (Text.subset_of_mem_fields (mem_filled.mp hf).1 hmem)
  have hname : '+' ∉ (Text.cut '=' f).1 := fun hmem => hplus (Text.cut_fst_subset '=' f hmem)
  have hvalue : '+' ∉ (Text.cut '=' f).2.getD [] := fun hmem =>
    hplus (Text.cut_snd_subset '=' f hmem)
  rw [read, Percent.decodeForm_eq_decode hname, Percent.decodeForm_eq_decode hvalue]
  simp only [Function.comp_apply, pair, argument]
  cases (Text.cut '=' f).2 <;> rfl

/-! ## Canonical form -/

/-- What stands behind the first question mark. -/
def queryOf (url : Text) : Text := (Text.cut '?' url).2.getD []

section
variable {base : Text} (hbase : '?' ∉ base)
include hbase

theorem cut_join (args : List Argument) :
    (Text.cut '?' (join Percent.encode base args)).1 = base := by
  cases args with
  | nil => rw [join, Text.cut_of_not_mem hbase]
  | cons a args =>
    show (Text.cut '?' (base ++ '?' :: _)).1 = base
    rw [Text.cut_append hbase]

theorem queryOf_join (args : List Argument) :
    queryOf (join Percent.encode base args) = Text.joined ['&'] (args.map encoded) := by
  cases args with
  | nil =>
    rw [join, queryOf, Text.cut_of_not_mem hbase]
    rfl
  | cons a args =>
    show (Text.cut '?' (base ++ '?' :: _)).2.getD [] = _
    rw [Text.cut_append hbase]
    rfl

end

/-- No query has an argument with neither a name nor a value. -/
theorem bare_not_mem_arguments (query : Text) : ([], none) ∉ arguments query :=
  fun h => written_ne_nil h rfl

/-- **Canonical form.** Arguments are read back from `join Percent.encode` exactly if `([], none)`
is not among them; `join` is injective on such arguments, and a query has no others. -/
theorem encoded_form_canonical {base : Text} (hbase : '?' ∉ base) :
    (∀ args, arguments (queryOf (join Percent.encode base args)) = args ↔ ([], none) ∉ args) ∧
    (∀ base' args args', '?' ∉ base' → ([], none) ∉ args → ([], none) ∉ args' →
      (join Percent.encode base args = join Percent.encode base' args' ↔
        base = base' ∧ args = args')) ∧
    ∀ query, arguments (queryOf (join Percent.encode base (arguments query))) = arguments query := by
  have hread : ∀ {base args}, '?' ∉ base → ([], none) ∉ args →
      arguments (queryOf (join Percent.encode base args)) = args := by
    intro base args hbase hargs
    rw [queryOf_join hbase]
    exact arguments_encoded fun a ha hbare => hargs (hbare ▸ ha)
  refine ⟨fun args => ⟨fun h => ?_, hread hbase⟩, fun base' args args' hbase' hargs hargs' => ?_,
    fun query => hread hbase (bare_not_mem_arguments query)⟩
  · rw [← h]
    exact bare_not_mem_arguments _
  · constructor
    · intro h
      refine ⟨?_, ?_⟩
      · rw [← cut_join hbase args, h, cut_join hbase' args']
      · rw [← hread hbase hargs, h, hread hbase' hargs']
    · rintro ⟨rfl, rfl⟩
      rfl

/-- Separators, escapes and characters beyond ASCII within names and values, a name without a value,
an empty value, and a value without a name. -/
def mixed : List Argument := [
  ("t[]".toList, some "a=b&c?d".toList),
  ([], some []),
  ("%41".toList, none),
  ("é".toList, some "+ ☃".toList),
  ("x".toList, none),
  ("x".toList, some [])]

/-- They are read back, also from the encoded form of what a query with stray separators and broken
escapes is read as; and an empty value is not the same as none. -/
theorem encoded_form_canonical_mixed :
    '?' ∉ "http://imbo/a".toList ∧ ([], none) ∉ mixed ∧
      arguments (queryOf (join Percent.encode "http://imbo/a".toList mixed)) = mixed ∧
      join Percent.encode "http://imbo/a".toList [("x".toList, none)] ≠
        join Percent.encode "http://imbo/a".toList [("x".toList, some [])] ∧
      arguments (queryOf (join Percent.encode "http://imbo/a".toList
        (arguments "&%zz&&=%26&é%C3=".toList))) = arguments "&%zz&&=%26&é%C3=".toList := by
  have hbase : '?' ∉ "http://imbo/a".toList := by decide
  have hmixed : ([], none) ∉ mixed := by decide
  obtain ⟨hread, htold, hagain⟩ := encoded_form_canonical hbase
  refine ⟨hbase, hmixed, (hread mixed).mpr hmixed, fun h => ?_, hagain _⟩
  have hsame := ((htold _ _ _ hbase (by decide) (by decide)).mp h).2
  cases hsame

end AliasGate.Query
