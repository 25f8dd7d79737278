import AliasGate.Keyed

/-!
# Laws of keyed lists

What `Keyed.get?` sees after `Keyed.put`, and that a key is found exactly if it has a place.

* `get?_eq_head?`: a key's value is that of the first entry under it.
* `get?_of_mem`: if no key stands twice, every entry is found.
* `eq_of_get?`: then the entries are told by the keys in order and what is found.
* `get?_append`, `get?_without`, `get?_filter` and `get?_filter_of_forall`: what is found after entries
  were added or taken away.
* `ofPairs_of_nodup`, `ofPairs_induction`, `get?_ofPairs`: pairs stored one after another.
-/

namespace AliasGate.Keyed

variable {κ ν : Type} [DecidableEq κ]

theorem get?_put (entries : Keyed κ ν) (key other : κ) (value : ν) :
    get? (put entries key value) other = if key = other then some value else get? entries other := by
  induction entries with
  | nil => simp [put, get?]
  | cons e rest ih =>
    obtain ⟨k, v⟩ := e
    by_cases hk : k = key
    · subst hk
      by_cases ho : k = other <;> simp [put, get?, ho]
    · by_cases ho : k = other
      · subst ho
        have hk' : ¬key = k := fun h => hk h.symm
        simp [put, get?, hk, hk']
      · simp [put, get?, hk, ho, ih]

/-- A key has a value exactly if it has a place. -/
theorem get?_eq_none_iff (entries : Keyed κ ν) (key : κ) :
    get? entries key = none ↔ key ∉ keys entries := by
  induction entries with
  | nil => simp [get?, keys]
  | cons e rest ih =>
    obtain ⟨k, v⟩ := e
    by_cases hk : k = key
    · subst hk
      simp [get?, keys]
    · simp only [get?, hk, ↓reduceIte, keys, List.map_cons, List.mem_cons, not_or]
      rw [ih]
      exact ⟨fun h => ⟨fun h' => hk h'.symm, h⟩, And.right⟩

theorem mem_of_get? {entries : Keyed κ ν} {key : κ} {value : ν} (h : get? entries key = some value) :
    (key, value) ∈ entries := by
  induction entries with
  | nil => cases h
  | cons e rest ih =>
    obtain ⟨k, v⟩ := e
    by_cases hk : k = key
    · subst hk
      simp only [get?, ↓reduceIte, Option.some.injEq] at h
      exact h ▸ List.mem_cons_self
    · simp only [get?, hk, ↓reduceIte] at h
      exact List.mem_cons_of_mem _ (ih h)

/-- If no key stands twice, every entry is found. -/
theorem get?_of_mem {entries : Keyed κ ν} {key : κ} {value : ν} (h : (keys entries).Nodup)
    (hmem : (key, value) ∈ entries) : get? entries key = some value := by
  induction entries with
  | nil => cases hmem
  | cons e rest ih =>
    obtain ⟨k, v⟩ := e
    obtain ⟨hk, hrest⟩ := List.nodup_cons.mp h
    rcases List.mem_cons.mp hmem with heq | hmem
    · cases heq
      simp [get?]
    · have hne : k ≠ key := fun heq => hk (List.mem_map.mpr ⟨_, hmem, heq.symm⟩)
      rw [get?, if_neg hne]
      exact ih hrest hmem

/-- Entries are told by the keys in order and the value under each key, if no key stands twice. -/
theorem eq_of_get? {entries other : Keyed κ ν} (hnodup : (keys entries).Nodup)
    (hkeys : keys entries = keys other)
    (h : ∀ key ∈ keys entries, get? entries key = get? other key) : entries = other := by
  induction entries generalizing other with
  | nil => exact (List.map_eq_nil_iff.mp hkeys.symm).symm
  | cons e rest ih =>
    obtain ⟨k, v⟩ := e
    obtain ⟨⟨k', v'⟩, rest', rfl, rfl, hrest⟩ := List.map_eq_cons_iff.mp hkeys.symm
    obtain ⟨hk, hnodup⟩ := List.nodup_cons.mp hnodup
    have hvalue := h k' List.mem_cons_self
    simp only [get?, ↓reduceIte, Option.some.injEq] at hvalue
    have hothers : ∀ key ∈ keys rest, get? rest key = get? rest' key := by
      intro key hkey
      have hne : k' ≠ key := fun heq => hk (heq ▸ hkey)
      have hget := h key (List.mem_cons_of_mem _ hkey)
      rwa [get?, if_neg hne, get?, if_neg hne] at hget
    rw [hvalue, ih hnodup hrest.symm hothers]

/-- The value under a key is that of the first entry under it. -/
theorem get?_eq_head? (entries : Keyed κ ν) (key : κ) :
    get? entries key = ((entries.filter fun e => e.1 = key).head?).map (·.2) := by
  induction entries with
  | nil => rfl
  | cons e rest ih =>
    obtain ⟨k, v⟩ := e
    by_cases hk : k = key <;> simp [get?, hk, ih]

theorem get?_append (entries more : Keyed κ ν) (key : κ) :
    get? (entries ++ more) key = (get? entries key).or (get? more key) := by
  simp only [get?_eq_head?, List.filter_append, List.head?_append]
  cases (entries.filter fun e => e.1 = key).head? <;> rfl

/-- Taking entries away loses nothing under a key if all entries under it stay. -/
theorem get?_filter_of_forall {entries : Keyed κ ν} {key : κ} {p : κ × ν → Bool}
    (h : ∀ e ∈ entries, e.1 = key → p e = true) : get? (entries.filter p) key = get? entries key := by
  have hfilter : (entries.filter p).filter (fun e => e.1 = key) =
      entries.filter fun e => e.1 = key := by
    rw [List.filter_filter]
    refine List.filter_congr fun e he => ?_
    by_cases hk : e.1 = key <;> simp [hk, h e he]
  rw [get?_eq_head?, get?_eq_head?, hfilter]

omit [DecidableEq κ] in
theorem nodup_filter {entries : Keyed κ ν} (h : (keys entries).Nodup) (p : κ × ν → Bool) :
    (keys (entries.filter p)).Nodup :=
  h.sublist (List.filter_sublist.map _)

/-- If no key stands twice, a key has the value that it had, if that value's entry stays. -/
theorem get?_filter {entries : Keyed κ ν} (h : (keys entries).Nodup) (p : κ × ν → Bool) (key : κ) :
    get? (entries.filter p) key = (get? entries key).filter fun v => p (key, v) := by
  induction entries with
  | nil => rfl
  | cons e rest ih =>
    obtain ⟨k, v⟩ := e
    obtain ⟨hk, hrest⟩ := List.nodup_cons.mp h
    by_cases hkey : k = key
    · subst hkey
      have hgone : get? (rest.filter p) k = none :=
        (get?_eq_none_iff _ _).mpr fun hmem => hk (List.filter_sublist.map _ |>.subset hmem)
      cases hp : p (k, v) <;> simp [get?, Option.filter, hp, hgone]
    · cases hp : p (k, v) <;> simp [get?, hp, hkey, ih hrest]

/-- Taking entries away by their keys loses just these keys. -/
theorem get?_without (entries : Keyed κ ν) (taken : List κ) (key : κ) :
    get? (without entries taken) key = if key ∈ taken then none else get? entries key := by
  by_cases hkey : key ∈ taken
  · rw [if_pos hkey, get?_eq_none_iff]
    intro hmem
    obtain ⟨e, he, rfl⟩ := List.mem_map.mp hmem
    exact of_decide_eq_true (List.mem_filter.mp he).2 hkey
  · rw [if_neg hkey]
    exact get?_filter_of_forall fun e _ he => decide_eq_true (he ▸ hkey)

theorem mem_put {entries : Keyed κ ν} {key : κ} {value : ν} {e : κ × ν}
    (h : e ∈ put entries key value) : e = (key, value) ∨ e ∈ entries := by
  induction entries with
  | nil => exact .inl (List.mem_singleton.mp h)
  | cons e' rest ih =>
    obtain ⟨k, v⟩ := e'
    by_cases hk : k = key
    · subst hk
      simp only [put, ↓reduceIte, List.mem_cons] at h
      exact h.imp_right (List.mem_cons_of_mem _)
    · simp only [put, hk, ↓reduceIte, List.mem_cons] at h
      rcases h with h | h
      · exact .inr (h ▸ List.mem_cons_self)
      · exact (ih h).imp_right (List.mem_cons_of_mem _)

theorem put_of_not_mem {entries : Keyed κ ν} {key : κ} (h : key ∉ keys entries) (value : ν) :
    put entries key value = entries ++ [(key, value)] := by
  induction entries with
  | nil => rfl
  | cons e rest ih =>
    obtain ⟨k, v⟩ := e
    obtain ⟨hk, hrest⟩ := not_or.mp (mt List.mem_cons.mpr h)
    rw [put, if_neg (Ne.symm hk), ih hrest, List.cons_append]

theorem keys_put (entries : Keyed κ ν) (key : κ) (value : ν) :
    keys (put entries key value) =
      if key ∈ keys entries then keys entries else keys entries ++ [key] := by
  induction entries with
  | nil => rfl
  | cons e rest ih =>
    obtain ⟨k, v⟩ := e
    by_cases hk : k = key
    · simp [put, keys, hk]
    · simp only [keys] at ih
      by_cases hmem : key ∈ rest.map (·.1) <;> simp [put, keys, hk, Ne.symm hk, ih, hmem]

theorem nodup_put {entries : Keyed κ ν} (h : (keys entries).Nodup) (key : κ) (value : ν) :
    (keys (put entries key value)).Nodup := by
  rw [keys_put]
  by_cases hkey : key ∈ keys entries
  · rwa [if_pos hkey]
  · rw [if_neg hkey]
    refine List.nodup_append.mpr ⟨h, List.pairwise_singleton _ key, fun a ha b hb => ?_⟩
    rw [List.mem_singleton.mp hb]
    exact fun heq => hkey (heq ▸ ha)

/-- Pairs with distinct keys are stored as they are. -/
theorem ofPairs_of_nodup {pairs : List (κ × ν)} (h : (keys pairs).Nodup) : ofPairs pairs = pairs := by
  have hfold : ∀ (pairs entries : List (κ × ν)), (keys (entries ++ pairs)).Nodup →
      pairs.foldl (fun e p => put e p.1 p.2) entries = entries ++ pairs := by
    intro pairs
    induction pairs with
    | nil => simp
    | cons p pairs ih =>
      intro entries hnodup
      have hmove : entries ++ p :: pairs = entries ++ [p] ++ pairs := by simp
      have hfresh : p.1 ∉ keys entries := by
        simp only [keys, List.map_append, List.map_cons, List.nodup_append] at hnodup
        exact fun hmem => hnodup.2.2 _ hmem _ List.mem_cons_self rfl
      rw [List.foldl_cons, put_of_not_mem hfresh, hmove, ← ih _ (hmove ▸ hnodup)]
  exact hfold pairs [] h

/-- What holds of all pairs holds of the entries, which have distinct keys. -/
theorem ofPairs_induction {P : κ × ν → Prop} {pairs : List (κ × ν)} (h : ∀ p ∈ pairs, P p) :
    (keys (ofPairs pairs)).Nodup ∧ ∀ e ∈ ofPairs pairs, P e := by
  have hfold : ∀ (pairs entries : List (κ × ν)), (∀ p ∈ pairs, P p) →
      (keys entries).Nodup ∧ (∀ e ∈ entries, P e) →
      (keys (pairs.foldl (fun e p => put e p.1 p.2) entries)).Nodup ∧
        ∀ e ∈ pairs.foldl (fun e p => put e p.1 p.2) entries, P e := by
    intro pairs
    induction pairs with
    | nil => exact fun _ _ h => h
    | cons p pairs ih =>
      intro entries hpairs hentries
      refine ih _ (fun q hq => hpairs q (List.mem_cons_of_mem p hq))
        ⟨nodup_put hentries.1 p.1 p.2, fun e he => ?_⟩
      rcases mem_put he with rfl | he
      · exact hpairs p List.mem_cons_self
      · exact hentries.2 e he
  exact hfold pairs [] h ⟨List.nodup_nil, fun e he => absurd he List.not_mem_nil⟩

/-- Of pairs stored one after another, the last one of a key counts. -/
theorem get?_ofPairs (pairs : List (κ × ν)) (key : κ) :
    get? (ofPairs pairs) key = ((pairs.filter fun p => p.1 = key).getLast?).map (·.2) := by
  have hfold : ∀ (pairs entries : List (κ × ν)),
      get? (pairs.foldl (fun e p => put e p.1 p.2) entries) key =
        (((pairs.filter fun p => p.1 = key).getLast?).map (·.2)).or (get? entries key) := by
    intro pairs
    induction pairs with
    | nil => exact fun _ => rfl
    | cons p pairs ih =>
      intro entries
      rw [List.foldl_cons, ih, get?_put]
      by_cases hkey : p.1 = key
      · cases hlast : (pairs.filter fun p => p.1 = key).getLast? <;>
          simp [hkey, List.getLast?_cons, hlast]
      · simp [hkey]
  rw [ofPairs, hfold]
  exact Option.or_none

theorem mem_without {entries : Keyed κ ν} {keys : List κ} {e : κ × ν} :
    e ∈ without entries keys ↔ e ∈ entries ∧ e.1 ∉ keys := by
  simp [without]

end AliasGate.Keyed
