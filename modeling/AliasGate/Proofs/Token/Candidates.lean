import AliasGate.Proofs.Http.Request
import AliasGate.Proofs.Token.Stripping
import Mathlib.Data.List.Induction

/-!
# Candidates

* `Candidate.mem_urls`: a candidate is a form of the URL, perhaps under another scheme, stripped.
* `Http.Request.withScheme_url`: what the change of the scheme does to the URL of a request.
-/

namespace AliasGate

namespace Candidate

theorem mem_distinct {u : Text} {urls : List Text} : u ∈ distinct urls ↔ u ∈ urls := by
  induction urls with
  | nil => exact Iff.rfl
  | cons v urls ih =>
    simp only [distinct, List.mem_cons, List.mem_filter, ih, decide_eq_true_eq]
    constructor
    · exact Or.imp_right And.left
    · exact fun h => (Classical.em (u = v)).imp_right fun hne => ⟨h.resolve_left hne, hne⟩

/-- A form of a URL before it is stripped: as it is, or under one of the schemes of the protocol. -/
def Rebuilt (protocol : Protocol) (form u : Text) : Prop :=
  protocol.schemes = [] ∧ u = form ∨ ∃ s ∈ protocol.schemes, u = withScheme s form

/-- What is left of forms under the schemes. -/
theorem mem_stripped {u key : Text} {protocol : Protocol} {fs : List Text} :
    u ∈ (underSchemes protocol.schemes fs).map (strip key) ↔
      ∃ form ∈ fs, ∃ v, Rebuilt protocol form v ∧ u = strip key v := by
  rw [List.mem_map]
  unfold underSchemes Rebuilt
  split
  next hs =>
    constructor
    · rintro ⟨form, hform, rfl⟩
      exact ⟨form, hform, form, .inl ⟨hs, rfl⟩, rfl⟩
    · rintro ⟨form, hform, v, ⟨-, rfl⟩ | ⟨s, hmem, -⟩, rfl⟩
      · exact ⟨v, hform, rfl⟩
      · rw [hs] at hmem
        cases hmem
  next hs =>
    constructor
    · rintro ⟨v, hv, rfl⟩
      obtain ⟨form, hform, hv⟩ := List.mem_flatMap.mp hv
      obtain ⟨s, hmem, rfl⟩ := List.mem_map.mp hv
      exact ⟨form, hform, _, .inr ⟨s, hmem, rfl⟩, rfl⟩
    · rintro ⟨form, hform, v, ⟨hnil, -⟩ | ⟨s, hmem, rfl⟩, rfl⟩
      · exact absurd hnil hs
      · exact ⟨_, List.mem_flatMap.mpr ⟨form, hform, List.mem_map.mpr ⟨s, hmem, rfl⟩⟩, rfl⟩

theorem mem_urls {u url key : Text} {protocol : Protocol} :
    u ∈ urls url protocol key ↔
      ∃ form ∈ forms url, ∃ v, Rebuilt protocol form v ∧ u = strip key v := by
  unfold urls
  rw [mem_distinct, mem_stripped]

/-- The forms that are built from arguments: as they are, numbered, and with their numbers taken away,
each written plainly and encoded. -/
def restored (base : Text) (args : List Query.Argument) : List Text :=
  [args, Query.index args, Query.reduce args].flatMap (rebuilt base)

/-- The forms of a URL with a query: as it is, decoded, and built from its arguments. -/
theorem forms_query {base query : Text} (hbase : '?' ∉ base) (hquery : query ≠ []) :
    forms (base ++ '?' :: query) = [base ++ '?' :: query, Percent.decode (base ++ '?' :: query)] ++
      restored base (Query.arguments query) := by
  unfold forms restored
  rw [Text.cut_append hbase]
  simp only [Option.getD_some]

/-- An argument key of unreserved characters marks its arguments. -/
theorem marker_of_unreserved {k : Text} (hplain : ∀ c ∈ k, Percent.isUnreserved c = true) :
    Marker (k ++ ['=']) := by
  refine ⟨by simp, fun c hc => ?_⟩
  rcases List.mem_append.mp hc with hc | hc
  · exact isSeparator_eq_false (Percent.isUnreserved_ne (hplain c hc) rfl)
      (Percent.isUnreserved_ne (hplain c hc) rfl)
  · rw [List.mem_singleton.mp hc]
    rfl

theorem self_mem_forms (url : Text) : url ∈ forms url := List.mem_cons_self

/-- The scheme of a URL that has one of the two is replaced. -/
theorem withScheme_append {scheme : Text} (h : scheme = "http".toList ∨ scheme = "https".toList)
    (s t : Text) : withScheme s (scheme ++ ("://".toList ++ t)) = s ++ ("://".toList ++ t) := by
  rcases h with rfl | rfl
  · have hnone : Text.after? ['s'] ("://".toList ++ t) = none := rfl
    unfold withScheme
    rw [Text.after?_eq_some_iff.mpr rfl]
    simp only [hnone]
  · have hsome : Text.after? "http".toList ("https".toList ++ ("://".toList ++ t)) =
        some ('s' :: ("://".toList ++ t)) := Text.after?_eq_some_iff.mpr rfl
    have hs : Text.after? ['s'] ('s' :: ("://".toList ++ t)) = some ("://".toList ++ t) := rfl
    unfold withScheme
    rw [hsome]
    simp only [hs]

end Candidate

/-! ## Queries that lose their last separators -/

namespace Candidate

open Query (filled)

/-- A query behind its question mark; without a query there is none. -/
def behind : Text → Text
  | [] => []
  | query => '?' :: query

theorem behind_inj {q q' : Text} (h : behind q = behind q') : q = q' := by
  cases q with
  | nil =>
    cases q' with
    | nil => rfl
    | cons => cases h
  | cons c q =>
    cases q' with
    | nil => cases h
    | cons c' q' => exact (List.cons.inj h).2

/-- The separators at the end of a query go, and its question mark if nothing is left. -/
theorem dropSeparators_query {base query : Text}
    (hbase : dropSeparators query = [] → ∀ t c, base = t ++ [c] → isSeparator c = false) :
    dropSeparators (base ++ '?' :: query) = base ++ behind (dropSeparators query) := by
  rw [List.append_cons, dropSeparators, Text.dropEndWhile_append]
  split
  next h =>
    have hself : dropSeparators base = base := Text.dropEndWhile_eq_self (hbase h)
    rw [show dropSeparators query = [] from h]
    exact (dropSeparators_concat rfl base).trans (hself.trans (List.append_nil base).symm)
  next h =>
    rw [List.append_assoc, List.singleton_append]
    unfold behind
    split
    next hnil => exact absurd hnil h
    next => rfl

theorem filled_concat {fs : List Text} {f : Text} (hf : f ≠ []) :
    filled (fs ++ [f]) = filled fs ++ [f] := by
  rw [filled, List.filter_append, List.filter_cons_of_pos (by simpa using hf)]
  rfl

/-- Ampersands at the end cost only empty fields, and whatever else is lost, the last field that is
not empty loses. -/
theorem filled_dropSeparators {query f : Text} {before : List Text}
    (h : filled (Text.fields '&' query) = before ++ [f]) (hf : dropSeparators f ≠ []) :
    filled (Text.fields '&' (dropSeparators query)) = before ++ [dropSeparators f] := by
  induction query using List.reverseRecOn with
  | nil => cases before <;> cases h
  | append_singleton query c ih =>
    by_cases hc : c = '&'
    · subst hc
      rw [Text.fields_append, filled, List.filter_append] at h
      rw [dropSeparators_concat rfl]
      exact ih (by simpa [filled, Text.fields] using h)
    · obtain ⟨x, g, init, hquery, hne, hg, hfields⟩ := Text.exists_last_field hc query
      rw [hquery, hfields g hg, filled_concat hne] at h
      obtain ⟨hbefore, hgf⟩ := List.append_inj' h rfl
      have hgf : g = f := by simpa using hgf
      subst hgf
      have hdrop : '&' ∉ dropSeparators g := fun hmem => hg (Text.mem_of_mem_dropEndWhile hmem)
      rw [hquery, dropSeparators, Text.dropEndWhile_append, if_neg hf, hfields _ hdrop,
        filled_concat hf, hbefore]

theorem dropSeparators_of_filled {query : Text} (h : filled (Text.fields '&' query) = []) :
    dropSeparators query = [] := by
  induction query using List.reverseRecOn with
  | nil => rfl
  | append_singleton query c ih =>
    by_cases hc : c = '&'
    · subst hc
      rw [Text.fields_append, filled, List.filter_append, List.append_eq_nil_iff] at h
      rw [dropSeparators_concat rfl, ih h.1]
    · obtain ⟨x, g, init, hquery, hne, hg, hfields⟩ := Text.exists_last_field hc query
      rw [hquery, hfields g hg, filled_concat hne] at h
      exact absurd h (by simp)

end Candidate

/-! ## Requests under another scheme -/

namespace Http.Request

/-- The request under another scheme. -/
def under (r : Request) (scheme : Text) : Request := { r with scheme := scheme }

/-- The URL behind its scheme. -/
def rest (r : Request) : Text :=
  r.host ++ r.path ++
    match r.query with
    | [] => []
    | query => '?' :: query

theorem url_eq_rest (r : Request) : r.url = r.scheme ++ ("://".toList ++ r.rest) := by
  cases hquery : r.query with
  | nil => simp [url, rest, hquery]
  | cons c query => simp [url, rest, hquery]

theorem withScheme_url {r : Request} (h : r.scheme = "http".toList ∨ r.scheme = "https".toList)
    (s : Text) : Candidate.withScheme s r.url = (r.under s).url := by
  rw [url_eq_rest, Candidate.withScheme_append h, url_eq_rest]
  rfl

end Http.Request

end AliasGate
