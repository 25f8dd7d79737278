import AliasGate.Proofs.Json.Reading
import AliasGate.Proofs.Text.Fields
import AliasGate.ShortUrl.Reader

/-!
# What query texts give

An object that was given as a query text keeps the limits of the dialect that the text was read by.
Not every text gives an object.

* `takes_addArgument`: one argument more keeps them.
* `takes_ofQueryText?`: so do all arguments of a text.
* `ofQueryText?_eq_none_iff`: a text gives none exactly if one of its arguments has for its whole
  name what a later one has before its brackets (`UsesBoth`).
-/

namespace AliasGate

open Json (Dialect)

variable {d : Dialect} {level : Nat}

/-- Names and values of form data are texts if the form data are one. -/
theorem Query.allows_formWide {s : WideText} (h : d.Allows s) :
    ∀ p ∈ formWide s, d.Allows p.1 ∧ d.Allows p.2 := by
  intro p hp
  obtain ⟨⟨name, value⟩, hpair, rfl⟩ := List.mem_map.mp hp
  obtain ⟨f, hf, hcut⟩ := List.mem_map.mp hpair
  have hsub : f ⊆ s := Text.subset_of_mem_fields (List.mem_filter.mp hf).1
  have hname : name ⊆ f := by
    have hfst := Text.cut_fst_subset (.char '=') f
    rwa [hcut] at hfst
  have hvalue : value.getD [] ⊆ f := by
    have hsnd := Text.cut_snd_subset (.char '=') f
    rwa [hcut] at hsnd
  exact ⟨(h.of_subset fun _ hc => hsub (hname hc)).onRuns _,
    (h.of_subset fun _ hc => hsub (hvalue hc)).onRuns _⟩

namespace ShortUrl

variable {query query' : Keyed WideText Json} {key value : WideText}

theorem takes_put (hquery : d.Takes level (.obj query)) (hkey : d.Allows key) {j : Json}
    (hj : d.Takes (level + 1) j) : d.Takes level (.obj (Keyed.put query key j)) := by
  refine Dialect.takes_obj hquery.obj_le (Keyed.nodup_put hquery.names key j) fun m hm => ?_
  rcases Keyed.mem_put hm with rfl | hm
  · exact ⟨hkey, hj⟩
  · exact hquery.member m hm

theorem arrayName?_subset {name : WideText} (h : arrayName? key = some name) : name ⊆ key := by
  unfold arrayName? at h
  split at h
  · next hcut =>
    cases h
    have hfst := Text.cut_fst_subset (.char '[') key
    rwa [hcut] at hfst
  · cases h

/-- An argument more keeps the limits: it stands in the object or in a list in it. -/
theorem takes_addArgument (hlevel : level + 2 ≤ d.nesting) (hquery : d.Takes level (.obj query))
    (hkey : d.Allows key) (hvalue : d.Allows value)
    (h : addArgument query key value = some query') : d.Takes level (.obj query') := by
  have hempty := d.countsEmpty.toNat_le
  have hstr : ∀ n, n ≤ d.nesting → d.Takes n (.str value) := fun n hn =>
    ⟨Json.all_str.mpr hvalue, hn⟩
  unfold addArgument at h
  split at h
  · cases h
    exact takes_put hquery hkey (hstr _ (by omega))
  next name hname =>
  have hname : d.Allows name := hkey.of_subset (arrayName?_subset hname)
  split at h
  · cases h
    refine takes_put hquery hname (Dialect.takes_arr (by omega) fun j hj => ?_)
    rw [List.mem_singleton.mp hj]
    exact hstr _ hlevel
  · next values hvalues =>
    cases h
    have hlist : d.Takes (level + 1) (.arr values) := (hquery.member _ (Keyed.mem_of_get? hvalues)).2
    refine takes_put hquery hname (Dialect.takes_arr (by omega) fun j hj => ?_)
    rcases List.mem_append.mp hj with hj | hj
    · exact hlist.element j hj
    · rw [List.mem_singleton.mp hj]
      exact hstr _ hlevel
  · cases h

theorem takes_addArguments (hlevel : level + 2 ≤ d.nesting) {pairs : List (WideText × WideText)}
    (hpairs : ∀ p ∈ pairs, d.Allows p.1 ∧ d.Allows p.2) (hquery : d.Takes level (.obj query))
    (h : pairs.foldlM (fun query p => addArgument query p.1 p.2) query = some query') :
    d.Takes level (.obj query') := by
  induction pairs generalizing query with
  | nil =>
    cases h
    exact hquery
  | cons p pairs ih =>
    obtain ⟨next, hnext, hrest⟩ := Option.bind_eq_some_iff.mp h
    obtain ⟨hkey, hvalue⟩ := hpairs p List.mem_cons_self
    exact ih (fun q hq => hpairs q (List.mem_cons_of_mem p hq))
      (takes_addArgument hlevel hquery hkey hvalue hnext) hrest

/-- The object of a query text keeps the limits. -/
theorem takes_ofQueryText? (hlevel : level + 2 ≤ d.nesting) {s : WideText} (hs : d.Allows s)
    (h : ofQueryText? s = some query) : d.Takes level (.obj query) := by
  have hmarks : d.Allows (dropMarks s) := hs.of_subset (List.dropWhile_sublist _).subset
  have hcounts := d.countsEmpty.toNat_le
  have hempty : d.Takes level (.obj []) :=
    Dialect.takes_obj (by omega) List.nodup_nil fun m hm => absurd hm List.not_mem_nil
  exact takes_addArguments hlevel (Query.allows_formWide hmarks) hempty h

/-! ## Query texts without an object -/

/-- An argument has for its whole name what a later one has before its brackets. -/
def UsesBoth (pairs : List (WideText × WideText)) : Prop :=
  ∃ p q, [p, q].Sublist pairs ∧ arrayName? p.1 = none ∧ arrayName? q.1 = some p.1

/-- Under the name there is something that is no list. -/
def IsSingle (query : Keyed WideText Json) (name : WideText) : Prop :=
  ∃ j, Keyed.get? query name = some j ∧ ∀ values, j ≠ .arr values

theorem isSingle_put (query : Keyed WideText Json) (key name : WideText) (j : Json) :
    IsSingle (Keyed.put query key j) name ↔
      if key = name then ∀ values, j ≠ .arr values else IsSingle query name := by
  unfold IsSingle
  rw [Keyed.get?_put]
  split
  · simp
  · rfl

theorem usesBoth_cons {p : WideText × WideText} {pairs : List (WideText × WideText)} :
    UsesBoth (p :: pairs) ↔
      (arrayName? p.1 = none ∧ ∃ q ∈ pairs, arrayName? q.1 = some p.1) ∨ UsesBoth pairs := by
  unfold UsesBoth
  constructor
  · rintro ⟨p', q, hsub, hplain, harray⟩
    cases hsub with
    | cons _ hsub => exact .inr ⟨p', q, hsub, hplain, harray⟩
    | cons_cons _ hsub => exact .inl ⟨hplain, q, List.singleton_sublist.mp hsub, harray⟩
  · rintro (⟨hplain, q, hq, harray⟩ | ⟨p', q, hsub, h⟩)
    · exact ⟨p, q, (List.singleton_sublist.mpr hq).cons_cons p, hplain, harray⟩
    · exact ⟨p', q, hsub.cons p, h⟩

/-- What adding an argument does to the names that hold no list. -/
theorem addArgument_cases (query : Keyed WideText Json) (key value : WideText) :
    (arrayName? key = none ∧ ∃ query', addArgument query key value = some query' ∧
      ∀ name, IsSingle query' name ↔ key = name ∨ IsSingle query name) ∨
    ∃ array, arrayName? key = some array ∧
      (IsSingle query array ∧ addArgument query key value = none ∨
        ¬IsSingle query array ∧ ∃ query', addArgument query key value = some query' ∧
          ∀ name, IsSingle query' name ↔ IsSingle query name) := by
  unfold addArgument
  cases harray : arrayName? key with
  | none =>
    refine .inl ⟨rfl, _, rfl, fun name => ?_⟩
    rw [isSingle_put]
    by_cases hname : key = name <;> simp [hname]
  | some array =>
    refine .inr ⟨array, rfl, ?_⟩
    -- a list under the name stays one, and one that is begun is one
    have hlist : ∀ values, ¬IsSingle query array → ∀ name,
        IsSingle (Keyed.put query array (.arr values)) name ↔ IsSingle query name := by
      intro values hnot name
      rw [isSingle_put]
      by_cases hname : array = name
      · simpa [hname] using hname ▸ hnot
      · simp [hname]
    cases hget : Keyed.get? query array with
    | none =>
      have hnot : ¬IsSingle query array := by simp [IsSingle, hget]
      exact .inr ⟨hnot, Keyed.put query array (.arr [.str value]), by simp only [hget],
        hlist _ hnot⟩
    | some j =>
      by_cases hj : ∃ values, j = .arr values
      · obtain ⟨values, rfl⟩ := hj
        have hnot : ¬IsSingle query array := by simp [IsSingle, hget]
        exact .inr ⟨hnot, Keyed.put query array (.arr (values ++ [.str value])),
          by simp only [hget], hlist _ hnot⟩
      · have hsingle : ∀ values, j ≠ .arr values := fun values h => hj ⟨values, h⟩
        refine .inl ⟨⟨j, hget, hsingle⟩, ?_⟩
        cases j with
        | arr values => exact absurd rfl (hsingle values)
        | _ => simp only [hget]

theorem addArguments_eq_none_iff (query : Keyed WideText Json)
    (pairs : List (WideText × WideText)) :
    pairs.foldlM (fun query p => addArgument query p.1 p.2) query = none ↔
      (∃ q ∈ pairs, ∃ name, arrayName? q.1 = some name ∧ IsSingle query name) ∨
        UsesBoth pairs := by
  induction pairs generalizing query with
  | nil => simp [UsesBoth]
  | cons p pairs ih =>
    rw [List.foldlM_cons, usesBoth_cons]
    rcases addArgument_cases query p.1 p.2 with
      ⟨hplain, query', hadd, hsingle⟩ | ⟨array, harray, ⟨hsingle, hadd⟩ | ⟨hnot, query', hadd, hsingle⟩⟩
    · rw [hadd, Option.bind_eq_bind, Option.bind_some, ih]
      simp only [hsingle, hplain, List.mem_cons, true_and]
      grind
    · rw [hadd]
      exact iff_of_true rfl (.inl ⟨p, List.mem_cons_self, array, harray, hsingle⟩)
    · rw [hadd, Option.bind_eq_bind, Option.bind_some, ih]
      simp only [hsingle, harray, List.mem_cons, reduceCtorEq, false_and, false_or]
      grind

/-- The only texts that give no object. -/
theorem ofQueryText?_eq_none_iff (s : WideText) :
    ofQueryText? s = none ↔ UsesBoth (Query.formWide (dropMarks s)) := by
  rw [ofQueryText?, addArguments_eq_none_iff]
  simp [IsSingle, Keyed.get?]

end ShortUrl

end AliasGate
