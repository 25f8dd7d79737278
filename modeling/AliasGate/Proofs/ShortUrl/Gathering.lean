import AliasGate.Proofs.Keyed
import AliasGate.Proofs.Query.Spelling
import AliasGate.Proofs.Text.CodePoint
import AliasGate.ShortUrl.Reader
import Mathlib.Data.List.Induction
import Mathlib.Data.List.Nodup

/-!
# Query texts for query objects

A query object whose values are texts and lists of texts can be written as a query text, in which the
elements of its lists may stand among the other arguments. The text gives the object back.

* `ShortUrl.Mapping`: names with a text or with several; `ShortUrl.objectOf`: the object.
* `ShortUrl.Part`: one argument of a query text.
* `ShortUrl.Interleaves`: the arguments are those of the mapping, each list in its order and the names
  in the order in which they come first.
* `ShortUrl.Gathered`: what reading some arguments has gathered; `ShortUrl.gathered_concat`: one
  argument more.
* `ShortUrl.ofQueryText?_written`: the object of a text that was written for a mapping.
-/

namespace AliasGate

/-! ## Form data in texts without lone surrogates -/

namespace Text

variable {α β : Type} [DecidableEq α] [DecidableEq β] {f : α → β}

theorem fields_map (hf : f.Injective) (sep : α) (s : List α) :
    fields (f sep) (s.map f) = (fields sep s).map (List.map f) := by
  induction s with
  | nil => rfl
  | cons c s ih =>
    simp only [List.map_cons, fields, hf.eq_iff, ih]
    split
    · rfl
    · cases fields sep s <;> rfl

theorem cut_map (hf : f.Injective) (sep : α) (s : List α) :
    cut (f sep) (s.map f) = ((cut sep s).1.map f, (cut sep s).2.map (List.map f)) := by
  induction s with
  | nil => rfl
  | cons c s ih =>
    simp only [List.map_cons, cut, hf.eq_iff, ih]
    split <;> rfl

end Text

theorem CodePoint.char_injective : Function.Injective CodePoint.char := fun _ _ => CodePoint.char.inj

theorem Query.formWide_ofText (s : Text) :
    formWide (WideText.ofText s) =
      (form s).map fun pair => (WideText.ofText pair.1, WideText.ofText pair.2) := by
  have hfilter : ∀ fs : List Text, (fs.map (List.map CodePoint.char)).filter (· ≠ []) =
      (fs.filter (· ≠ [])).map (List.map CodePoint.char) := fun fs => by
    simp only [List.filter_map, Function.comp_def, ne_eq, List.map_eq_nil_iff]
  simp only [formWide, form, split, WideText.ofText, Text.fields_map CodePoint.char_injective,
    hfilter, List.map_map]
  refine List.map_congr_left fun f _ => ?_
  have hvalue : ((Text.cut '=' f).2.map (List.map CodePoint.char)).getD [] =
      WideText.ofText ((Text.cut '=' f).2.getD []) := by
    cases (Text.cut '=' f).2 <;> rfl
  simp only [Function.comp_apply, Text.cut_map CodePoint.char_injective, hvalue]
  exact Prod.ext (WideText.onRuns_ofText _ _) (WideText.onRuns_ofText _ _)

namespace ShortUrl

/-! ## Mappings -/

/-- What a name stands for: a text, or one or more. -/
inductive Content where
  | single (value : Text)
  | several (first : Text) (rest : List Text)
  deriving DecidableEq, Repr

/-- The content as a value. -/
def Content.toJson : Content → Json
  | single value => .text value
  | several first rest => .arr ((first :: rest).map .text)

/-- Names in order, and what they stand for. -/
abbrev Mapping := Keyed Text Content

/-- The object of a mapping. -/
def objectOf (m : Mapping) : Keyed WideText Json :=
  m.map fun entry => (WideText.ofText entry.1, entry.2.toJson)

/-- The name ends in a closing bracket and has an opening one before it. -/
def IsArrayForm (name : Text) : Prop := ∃ s, name = s ++ [']'] ∧ '[' ∈ s

theorem isArrayForm_iff {name : Text} : IsArrayForm name ↔ name.getLast? = some ']' ∧ '[' ∈ name := by
  have hopen : ∀ s : Text, '[' ∈ s ++ [']'] ↔ '[' ∈ s := by simp
  constructor
  · rintro ⟨s, rfl, hs⟩
    exact ⟨List.getLast?_concat, (hopen s).mpr hs⟩
  · rintro ⟨hlast, hmem⟩
    obtain ⟨s, rfl⟩ := List.getLast?_eq_some_iff.mp hlast
    exact ⟨s, rfl, (hopen s).mp hmem⟩

instance (name : Text) : Decidable (IsArrayForm name) := decidable_of_iff _ isArrayForm_iff.symm

/-- The name can be written into a query text: that of one text does not look like that of an element,
and that of a list has no opening bracket. -/
def IsWritable (name : Text) : Content → Prop
  | .single _ => ¬IsArrayForm name
  | .several _ _ => '[' ∉ name

instance (name : Text) : (content : Content) → Decidable (IsWritable name content)
  | .single _ => inferInstanceAs (Decidable (¬IsArrayForm name))
  | .several _ _ => inferInstanceAs (Decidable ('[' ∉ name))

/-! ## Arguments -/

/-- An argument of a query text. An element of a list has brackets behind the name of the list, and
something or nothing in them. -/
structure Part where
  name : Text
  index : Option Text
  value : Text
  deriving DecidableEq, Repr

/-- The name of the argument as it stands in the text. -/
def Part.key (p : Part) : Text :=
  match p.index with
  | none => p.name
  | some index => p.name ++ '[' :: index ++ [']']

/-- The field is a way to write the argument. -/
def Part.Writes (p : Part) (f : Text) : Prop :=
  ∃ name value, Percent.Spells ['&', '=', '?'] name p.key ∧ Percent.Spells ['&'] value p.value ∧
    f = name ++ '=' :: value

/-- The encoded forms of name and value are one way to write an argument. -/
theorem Part.writes_encode (p : Part) :
    p.Writes (Percent.encode p.key ++ '=' :: Percent.encode p.value) :=
  ⟨_, _, Percent.spells_encode (Text.forall_mem_of_all (by decide)) p.key,
    Percent.spells_encode (Text.forall_mem_of_all (by decide)) p.value, rfl⟩

/-- The arguments under a name. -/
def under (name : Text) (parts : List Part) : List Part := parts.filter (·.name = name)

/-- The arguments are those of the content: one for a text, one for each element of a list. -/
def Content.Listed : Content → List Part → Prop
  | single value, ps => ps.map (fun p => (p.index, p.value)) = [(none, value)]
  | several first rest, ps => ps.map (·.value) = first :: rest ∧ ∀ p ∈ ps, p.index ≠ none

instance (ps : List Part) : (content : Content) → Decidable (content.Listed ps)
  | .single _ => inferInstanceAs (Decidable (_ = _))
  | .several _ _ => inferInstanceAs (Decidable (_ ∧ _))

/-- The arguments are those of the mapping in any order in which the names come first in the order of
the mapping and the elements of each list stand in their order. -/
structure Interleaves (m : Mapping) (parts : List Part) : Prop where
  names : (parts.map (·.name)).eraseDups = m.keys
  listed : ∀ entry ∈ m, entry.2.Listed (under entry.1 parts)

/-! ## One argument -/

/-- The name before the brackets, if there are any to be read. -/
theorem arrayName?_ofText (key : Text) :
    arrayName? (WideText.ofText key) =
      if key.getLast? = some ']' then (Text.cut '[' key).2.map fun _ =>
        WideText.ofText (Text.cut '[' key).1 else none := by
  have hlast : (WideText.ofText key).getLast? = key.getLast?.map .char := List.getLast?_map
  have hcut : Text.cut (.char '[') (WideText.ofText key) = _ :=
    Text.cut_map CodePoint.char_injective '[' key
  unfold arrayName?
  rw [hlast, hcut]
  cases key.getLast? with
  | none => rfl
  | some c =>
    by_cases hc : c = ']'
    · subst hc
      cases (Text.cut '[' key).2 <;> rfl
    · rw [if_neg fun h => hc (Option.some.inj h)]
      split
      next h _ => exact absurd (CodePoint.char.inj (Option.some.inj h)) hc
      next => rfl

theorem arrayName?_plain {key : Text} (h : ¬IsArrayForm key) :
    arrayName? (WideText.ofText key) = none := by
  rw [arrayName?_ofText]
  split
  next hlast =>
    rw [Text.cut_of_not_mem fun hmem => h (isArrayForm_iff.mpr ⟨hlast, hmem⟩)]
    rfl
  next => rfl

theorem arrayName?_element {name : Text} (h : '[' ∉ name) (index : Text) :
    arrayName? (WideText.ofText (name ++ '[' :: index ++ [']'])) = some (WideText.ofText name) := by
  have hcut : Text.cut '[' (name ++ '[' :: index ++ [']']) = (name, some (index ++ [']'])) := by
    rw [List.append_assoc, List.cons_append, Text.cut_append h]
  rw [arrayName?_ofText, if_pos List.getLast?_concat, hcut]
  rfl

/-- The name of the argument is read as it was meant. -/
def Part.IsRead (p : Part) : Prop :=
  match p.index with
  | none => ¬IsArrayForm p.name
  | some _ => '[' ∉ p.name

/-! ## What is gathered -/

/-- What stands under one name after its arguments were read: the last one as it is, or all as a
list. -/
def collected (ps : List Part) : Option Json :=
  ps.getLast?.map fun p => if p.index = none then .text p.value else .arr (ps.map (.text ·.value))

/-- The object that reading the arguments has led to. -/
structure Gathered (parts : List Part) (query : Keyed WideText Json) : Prop where
  keys : Keyed.keys query = (parts.map (·.name)).eraseDups.map WideText.ofText
  values : ∀ name, Keyed.get? query (WideText.ofText name) = collected (under name parts)

/-- The arguments of one name are all elements of a list or none is. -/
def Uniform (parts : List Part) : Prop :=
  ∀ p ∈ parts, ∀ q ∈ parts, p.name = q.name → (p.index = none ↔ q.index = none)

theorem under_concat (parts : List Part) (p : Part) (name : Text) :
    under name (parts ++ [p]) =
      if p.name = name then under name parts ++ [p] else under name parts := by
  unfold under
  rw [List.filter_append]
  by_cases h : p.name = name <;> simp [h]

theorem eraseDups_concat (names : List Text) (name : Text) :
    (names ++ [name]).eraseDups =
      if name ∈ names then names.eraseDups else names.eraseDups ++ [name] := by
  rw [List.eraseDups_append]
  by_cases h : name ∈ names <;> simp [List.removeAll, List.eraseDups_cons, h]

/-- One argument more is put under its name. -/
theorem Gathered.put {parts : List Part} {query : Keyed WideText Json} (h : Gathered parts query)
    {p : Part} {j : Json} (hj : collected (under p.name parts ++ [p]) = some j) :
    Gathered (parts ++ [p]) (Keyed.put query (WideText.ofText p.name) j) where
  keys := by
    have hmem : WideText.ofText p.name ∈ (parts.map (·.name)).eraseDups.map WideText.ofText ↔
        p.name ∈ parts.map (·.name) := by
      simp only [List.mem_map, WideText.ofText_inj, exists_eq_right, List.mem_eraseDups]
    rw [Keyed.keys_put, h.keys, List.map_append, List.map_singleton, eraseDups_concat]
    by_cases hname : p.name ∈ parts.map (·.name)
    · rw [if_pos (hmem.mpr hname), if_pos hname]
    · rw [if_neg (mt hmem.mp hname), if_neg hname, List.map_append, List.map_singleton]
  values name := by
    rw [Keyed.get?_put, under_concat, if_congr WideText.ofText_inj rfl rfl]
    split
    next hname => rw [← hname, hj]
    next => exact h.values name

theorem gathered_concat {parts : List Part} {query : Keyed WideText Json} (h : Gathered parts query)
    {p : Part} (hread : p.IsRead) (huniform : Uniform (parts ++ [p])) :
    ∃ query', addArgument query (WideText.ofText p.key) (WideText.ofText p.value) = some query' ∧
      Gathered (parts ++ [p]) query' := by
  obtain ⟨name, index, value⟩ := p
  cases index with
  | none =>
    refine ⟨_, ?_, h.put (j := .text value) (by simp [collected])⟩
    rw [addArgument, Part.key, arrayName?_plain hread]
    rfl
  | some index =>
    have hvalue := h.values name
    unfold addArgument Part.key
    simp only [arrayName?_element hread]
    cases hlast : (under name parts).getLast? with
    | none =>
      have hnil : under name parts = [] := List.getLast?_eq_none_iff.mp hlast
      rw [hnil] at hvalue
      simp only [hvalue, collected, List.getLast?_nil, Option.map_none]
      exact ⟨_, rfl, h.put (by simp [collected, hnil, Json.text])⟩
    | some q =>
      -- what stands there is a list, because all arguments of the name are elements
      have hmem : q ∈ under name parts := List.mem_of_getLast? hlast
      obtain ⟨hq, hname⟩ := List.mem_filter.mp hmem
      have helement : q.index ≠ none := fun hnone =>
        Option.some_ne_none index ((huniform q (List.mem_append_left _ hq) _
          (List.mem_append_right _ List.mem_cons_self) (of_decide_eq_true hname)).mp hnone)
      have hlist : collected (under name parts) =
          some (.arr ((under name parts).map (.text ·.value))) := by
        rw [collected, hlast, Option.map_some, if_neg helement]
      rw [hlist] at hvalue
      simp only [hvalue]
      exact ⟨_, rfl, h.put (by simp [collected, Json.text])⟩

/-- All arguments are read one after another. -/
theorem exists_gathered {parts : List Part} (hread : ∀ p ∈ parts, p.IsRead)
    (huniform : Uniform parts) :
    ∃ query, (parts.map fun p => (WideText.ofText p.key, WideText.ofText p.value)).foldlM
      (fun query pair => addArgument query pair.1 pair.2) [] = some query ∧ Gathered parts query := by
  induction parts using List.reverseRecOn with
  | nil => exact ⟨[], rfl, rfl, fun _ => rfl⟩
  | append_singleton parts p ih =>
    obtain ⟨query, hfold, hgathered⟩ := ih (fun q hq => hread q (List.mem_append_left _ hq))
      fun q hq q' hq' => huniform q (List.mem_append_left _ hq) q' (List.mem_append_left _ hq')
    obtain ⟨query', hadd, hgathered'⟩ := gathered_concat hgathered
      (hread p (List.mem_append_right _ List.mem_cons_self)) huniform
    refine ⟨query', ?_, hgathered'⟩
    rw [List.map_append, List.foldlM_append, hfold]
    simp only [Option.bind_eq_bind, Option.bind_some, List.map_singleton, List.foldlM_cons,
      List.foldlM_nil, hadd]
    rfl

/-! ## Texts for mappings -/

section
variable {m : Mapping} {parts : List Part}

theorem Interleaves.exists_entry (h : Interleaves m parts) {p : Part} (hp : p ∈ parts) :
    ∃ content, (p.name, content) ∈ m := by
  have hname : p.name ∈ m.keys := by
    rw [← h.names, List.mem_eraseDups]
    exact List.mem_map_of_mem hp
  obtain ⟨⟨name, content⟩, hentry, rfl⟩ := List.mem_map.mp hname
  exact ⟨content, hentry⟩

theorem mem_under {name : Text} {p : Part} : p ∈ under name parts ↔ p ∈ parts ∧ p.name = name := by
  simp [under]

/-- An argument has no brackets of its own exactly if its name stands for one text. -/
theorem Content.Listed.index_eq_none_iff {content : Content} {ps : List Part}
    (h : content.Listed ps) {p : Part} (hp : p ∈ ps) :
    p.index = none ↔ ∃ value, content = .single value := by
  cases content with
  | single value =>
    have hpair : (p.index, p.value) ∈ ps.map fun p => (p.index, p.value) := List.mem_map_of_mem hp
    rw [show ps.map _ = [(none, value)] from h, List.mem_singleton] at hpair
    exact iff_of_true (congrArg Prod.fst hpair) ⟨value, rfl⟩
  | several first rest => exact iff_of_false (h.2 p hp) fun ⟨_, h⟩ => nomatch h

/-- What is collected under a name is what the name stands for. -/
theorem Content.Listed.collected {content : Content} {ps : List Part} (h : content.Listed ps) :
    collected ps = some content.toJson := by
  cases content with
  | single value =>
    obtain ⟨p, rfl, hp⟩ := List.map_eq_singleton_iff.mp h
    obtain ⟨hindex, hvalue⟩ := Prod.mk.inj hp
    simp [ShortUrl.collected, hindex, hvalue, Content.toJson]
  | several first rest =>
    obtain ⟨hvalues, helements⟩ := h
    have hne : ps ≠ [] := by
      rintro rfl
      cases hvalues
    have hlist : ps.map (fun p => Json.text p.value) = (first :: rest).map .text := by
      rw [← hvalues, List.map_map]
      rfl
    rw [ShortUrl.collected, List.getLast?_eq_some_getLast hne, Option.map_some,
      if_neg (helements _ (List.getLast_mem hne)), hlist]
    rfl

theorem Interleaves.isRead (h : Interleaves m parts) (hm : ∀ entry ∈ m, IsWritable entry.1 entry.2) :
    ∀ p ∈ parts, p.IsRead := by
  intro p hp
  obtain ⟨content, hentry⟩ := h.exists_entry hp
  have hindex := (h.listed _ hentry).index_eq_none_iff (mem_under.mpr ⟨hp, rfl⟩)
  have hname := hm _ hentry
  unfold Part.IsRead
  cases content with
  | single value =>
    rw [hindex.mpr ⟨value, rfl⟩]
    exact hname
  | several first rest =>
    cases hp : p.index with
    | none => exact nomatch hindex.mp hp
    | some index => exact hname

theorem Interleaves.uniform (h : Interleaves m parts) : Uniform parts := by
  intro p hp q hq hname
  obtain ⟨content, hentry⟩ := h.exists_entry hp
  have hlisted := h.listed _ hentry
  rw [hlisted.index_eq_none_iff (mem_under.mpr ⟨hp, rfl⟩),
    hlisted.index_eq_none_iff (mem_under.mpr ⟨hq, hname.symm⟩)]

theorem keys_objectOf (m : Mapping) : Keyed.keys (objectOf m) = m.keys.map WideText.ofText := by
  simp only [Keyed.keys, objectOf, List.map_map, Function.comp_def]

/-- What was gathered from the arguments of a mapping is its object. -/
theorem Gathered.eq_objectOf {query : Keyed WideText Json} (hquery : Gathered parts query)
    (h : Interleaves m parts) (hnodup : m.keys.Nodup) : query = objectOf m := by
  have hkeys : Keyed.keys query = Keyed.keys (objectOf m) := by
    rw [hquery.keys, h.names, keys_objectOf]
  have hinj : (Keyed.keys (objectOf m)).Nodup := by
    rw [keys_objectOf]
    exact List.Nodup.map (fun _ _ => WideText.ofText_inj.mp) hnodup
  refine Keyed.eq_of_get? (hkeys ▸ hinj) hkeys fun key hkey => ?_
  rw [hkeys, keys_objectOf, List.mem_map] at hkey
  obtain ⟨name, hname, rfl⟩ := hkey
  obtain ⟨⟨name, content⟩, hentry, rfl⟩ := List.mem_map.mp hname
  have hobject : (WideText.ofText name, content.toJson) ∈ objectOf m :=
    List.mem_map.mpr ⟨_, hentry, rfl⟩
  rw [hquery.values, (h.listed _ hentry).collected, Keyed.get?_of_mem hinj hobject]

end

/-! ## The text -/

section
variable {parts : List Part} {fs : List Text}

theorem Part.Writes.read {p : Part} {f : Text} (h : p.Writes f) :
    '&' ∉ f ∧ f ≠ [] ∧ Query.read f = (p.key, p.value) := by
  obtain ⟨name, value, hname, hvalue, rfl⟩ := h
  have hequals : '=' ∉ name := hname.not_mem (by decide) rfl (by decide) (by decide)
  have hname' : '&' ∉ name := hname.not_mem (by decide) rfl (by decide) (by decide)
  have hvalue' : '&' ∉ value := hvalue.not_mem (by decide) rfl (by decide) (by decide)
  exact ⟨by simp [hname', hvalue'], by simp,
    by rw [Query.read_value hequals, hname.decodeForm_eq, hvalue.decodeForm_eq]⟩

/-- The arguments of a text in which they are written are read one by one. -/
theorem form_written (h : List.Forall₂ Part.Writes parts fs) :
    Query.form (Text.joined ['&'] fs) = parts.map fun p => (p.key, p.value) := by
  have hread : (∀ f ∈ fs, '&' ∉ f ∧ f ≠ []) ∧
      fs.map Query.read = parts.map fun p => (p.key, p.value) := by
    induction h with
    | nil => simp
    | cons hf h ih =>
      obtain ⟨hamp, hne, hread⟩ := hf.read
      exact ⟨List.forall_mem_cons.mpr ⟨⟨hamp, hne⟩, ih.1⟩, by
        rw [List.map_cons, List.map_cons, hread, ih.2]⟩
  obtain ⟨hfields, hreads⟩ := hread
  have hfilled : Query.filled fs = fs :=
    List.filter_eq_self.mpr fun f hf => decide_eq_true (hfields f hf).2
  rw [Query.form_eq, Query.filled_fields_joined fun f hf => (hfields f hf).1, hfilled, hreads]

/-- No question mark stands before the first argument. -/
theorem dropWhile_mark_written (h : List.Forall₂ Part.Writes parts fs) :
    (Text.joined ['&'] fs).dropWhile (· == '?') = Text.joined ['&'] fs := by
  cases h with
  | nil => rfl
  | @cons p f parts fs hf h =>
    obtain ⟨name, value, hname, hvalue, rfl⟩ := hf
    have hmark : '?' ∉ name := hname.not_mem (by decide) rfl (by decide) (by decide)
    obtain ⟨rest, hrest⟩ : ∃ rest, Text.joined ['&'] ((name ++ '=' :: value) :: fs) =
        name ++ '=' :: rest := by
      cases fs with
      | nil => exact ⟨value, List.intercalate_singleton⟩
      | cons g fs => exact ⟨_, by rw [Text.joined_cons_cons, List.append_assoc, List.cons_append]⟩
    rw [hrest]
    cases name with
    | nil => rfl
    | cons c name =>
      have hc : c ≠ '?' := fun hc => hmark (hc ▸ List.mem_cons_self)
      rw [List.cons_append, List.dropWhile_cons_of_neg (by simpa using hc)]

theorem dropMarks_ofText (s : Text) :
    dropMarks (WideText.ofText s) = WideText.ofText (s.dropWhile (· == '?')) := by
  unfold dropMarks WideText.ofText
  rw [List.dropWhile_map]
  congr 2
  funext c
  by_cases hc : c = '?' <;> simp [hc]

end

/-- **Query texts and query objects.** A text is written from a mapping by parts that are its
entries in some order (`Interleaves`) and fields for these (`Part.Writes`), behind any number of
question marks. It is read as the object of the mapping. -/
theorem ofQueryText?_written {m : Mapping} {parts : List Part} {fs : List Text}
    (hnodup : m.keys.Nodup) (hm : ∀ entry ∈ m, IsWritable entry.1 entry.2)
    (hparts : Interleaves m parts) (hfs : List.Forall₂ Part.Writes parts fs) (marks : Nat) :
    ofQueryText? (WideText.ofText (List.replicate marks '?' ++ Text.joined ['&'] fs)) =
      some (objectOf m) := by
  have hmarks : (List.replicate marks '?' ++ Text.joined ['&'] fs).dropWhile (· == '?') =
      Text.joined ['&'] fs := by
    rw [List.dropWhile_append_of_pos (fun c hc => by rw [List.eq_of_mem_replicate hc]; rfl),
      dropWhile_mark_written hfs]
  obtain ⟨query, hfold, hgathered⟩ := exists_gathered (hparts.isRead hm) hparts.uniform
  rw [ofQueryText?, dropMarks_ofText, hmarks, Query.formWide_ofText, form_written hfs, List.map_map,
    ← hgathered.eq_objectOf hparts hnodup]
  exact hfold

end ShortUrl

end AliasGate
