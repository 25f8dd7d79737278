import AliasGate.Proofs.Token.Parts
import AliasGate.Proofs.Token.Written

/-!
# Forms of a URL

What a client may have signed for a request whose parts are read alike however they are written: the
path in one of two spellings, and behind it one field for each argument.

* `Http.Request.Unambiguous`: the requests in question.
* `Http.Request.Restates`: a URL that says what the request says.
* `Http.Request.restates_of_mem_forms`: every form of the request's URL does.
-/

namespace AliasGate

open Candidate (Unmarked behind isSeparator)
open Query (Argument Clear Stands Variant filled writeArgument)

/-! ## Requests that are read in one way -/

namespace Http.Request

/-- No character of the decoded path or of an argument could be taken for something else, and what
is left without the token's arguments does not end in a separator. -/
structure Unambiguous (r : Request) (k : Text) : Prop where
  settled : Percent.decode (Percent.decode r.path) = Percent.decode r.path
  question : '?' ∉ Percent.decode r.path
  unmarked : ¬('&' :: (k ++ ['='])) <:+: Percent.decode r.path
  ending : Query.others k (Query.arguments r.query) = [] →
    (Percent.decode r.path).getLast? ≠ some '&'
  clear : ∀ a ∈ Query.arguments r.query, Clear k a
  last : ∀ a ∈ (Query.others k (Query.arguments r.query)).getLast?,
    (writeArgument id a).getLast? ≠ some '?'

/-- A spelling of the path of a request. -/
structure Spells (r : Request) (k p : Text) : Prop where
  rooted : p = [] ∨ ['/'] <+: p
  question : '?' ∉ p
  unmarked : Unmarked (k ++ ['=']) p
  ending : Query.others k (Query.arguments r.query) = [] →
    ∀ t c, p = t ++ [c] → isSeparator c = false
  decoded : Percent.decode p = Percent.decode r.path

section
variable {r : Request} {k : Text} (hplain : ∀ c ∈ k, Percent.isUnreserved c = true)
  (hr : r.WellFormed) (hclear : r.Unambiguous k)
include hplain hr hclear

/-- The path is a spelling of itself, and so is the decoded path. -/
theorem spells {p : Text} (hp : p = r.path ∨ p = Percent.decode r.path) : Spells r k p := by
  have hdecoded : Percent.decode p = Percent.decode r.path := by
    rcases hp with rfl | rfl
    · rfl
    · exact hclear.settled
  have hquestion : '?' ∉ p := by
    rcases hp with rfl | rfl
    · exact hr.question
    · exact hclear.question
  have hsettled : ∀ {s : Text}, s = p → Percent.decode s = Percent.decode r.path := by
    rintro s rfl
    exact hdecoded
  refine ⟨?_, hquestion, ?_, ?_, hdecoded⟩
  · rcases hp with rfl | rfl
    · exact hr.path
    · rcases hr.path with hnil | ⟨s, hs⟩
      · rw [hnil]
        exact .inl rfl
      · refine .inr ⟨Percent.decode s, ?_⟩
        rw [← hs]
        exact (Percent.decode_cons (by decide) s).symm
  · rintro c hc ⟨x, y, h⟩
    rcases Candidate.isSeparator_iff.mp hc with rfl | rfl
    · exact hquestion (h ▸ by simp)
    · -- Decoding keeps the mark, so that it would stand in the decoded path as well.
      refine hclear.unmarked ⟨Percent.decode x, Percent.decode y, ?_⟩
      rw [← hsettled h, List.append_assoc, List.append_assoc, List.cons_append, List.cons_append,
        Percent.decode_append (by decide),
        Percent.decode_append_left (Query.not_mem_marker hplain rfl (by decide))]
  · rintro hothers t c rfl
    refine Candidate.isSeparator_eq_false (fun hc => hquestion (by simp [hc])) ?_
    rintro rfl
    refine hclear.ending hothers ?_
    rw [← hdecoded, Percent.decode_append (by decide)]
    exact List.getLast?_concat

end

/-! ## Fields for arguments -/

/-- A URL that restates a request: host and path, the path perhaps in another spelling, and behind
them a field for each argument. -/
def Restates (r : Request) (k u : Text) : Prop :=
  ∃ p fs, Spells r k p ∧ u = r.onHost (p ++ '?' :: Text.joined ['&'] fs) ∧
    List.Forall₂ (Stands k) (filled fs) (Query.arguments r.query)

section
variable {r : Request} {k : Text} (hplain : ∀ c ∈ k, Percent.isUnreserved c = true)

include hplain

theorem forall₂_transmitted (hclear : ∀ a ∈ Query.arguments r.query, Clear k a) :
    List.Forall₂ (Stands k) (filled (Text.fields '&' r.query)) (Query.arguments r.query) := by
  rw [Query.arguments_eq] at hclear ⊢
  rw [List.forall₂_map_right_iff, List.forall₂_same]
  intro f hf
  obtain ⟨hmem, hne⟩ := Query.mem_filled.mp hf
  exact Query.stands_transmitted hplain hne (Text.not_mem_of_mem_fields hmem)
    (hclear _ (List.mem_map_of_mem hf))

theorem forall₂_decoded (hclear : ∀ a ∈ Query.arguments r.query, Clear k a) :
    List.Forall₂ (Stands k) (filled ((Text.fields '&' r.query).map Percent.decode))
      (Query.arguments r.query) := by
  have hwritten := fun a (ha : a ∈ Query.arguments r.query) => Query.written_ne_nil ha
  rw [Query.arguments_eq] at hclear hwritten ⊢
  rw [Query.filled_map_decode, List.forall₂_map_left_iff, List.forall₂_map_right_iff, List.forall₂_same]
  intro f hf
  have ha := List.mem_map_of_mem (f := Query.argument) hf
  rw [← Query.writeArgument_argument]
  exact Query.stands_plain hplain (hclear _ ha) (hwritten _ ha)

/-- Whichever notation is chosen for the names, what is written for an argument stands for it. -/
theorem forall₂_written {args variants : List Argument} {w : Text → Text}
    (hvariants : List.Forall₂ Variant args variants) (hclear : ∀ a ∈ args, Clear k a)
    (hwritten : ∀ a ∈ args, writeArgument id a ≠ [])
    (hw : ∀ b, Clear k b → writeArgument id b ≠ [] → Stands k (writeArgument w b) b) :
    List.Forall₂ (Stands k) (filled (variants.map (writeArgument w))) args := by
  have hstands : List.Forall₂ (Stands k) (variants.map (writeArgument w)) args := by
    rw [List.forall₂_map_left_iff]
    have hboth := (List.forall₂_and_left _ _).mpr
      ⟨fun a ha => (⟨hclear a ha, hwritten a ha⟩ : Clear k a ∧ writeArgument id a ≠ []), hvariants⟩
    refine List.Forall₂.flip (hboth.imp fun a b h => ?_)
    obtain ⟨⟨hclear, hwritten⟩, hvariant⟩ := h
    exact (hw b (hclear.variant hplain hvariant) (hvariant.written_ne_nil hwritten)).variant
      hplain hvariant
  have hfilled : filled (variants.map (writeArgument w)) = variants.map (writeArgument w) :=
    List.filter_eq_self.mpr fun f hf => decide_eq_true (Query.stands_fields hstands f hf).1
  rwa [hfilled]

variable (hr : r.WellFormed) (hclear : r.Unambiguous k)
  (hargs : Query.arguments r.query ≠ [])
include hr hclear hargs

theorem restates_rebuilt {variants : List Argument} {u : Text}
    (hvariants : List.Forall₂ Variant (Query.arguments r.query) variants)
    (h : u ∈ Candidate.rebuilt (r.onHost r.path) variants) : Restates r k u := by
  have hwritten : ∀ a ∈ Query.arguments r.query, writeArgument id a ≠ [] := fun _ => Query.written_ne_nil
  have hjoin : ∀ (w : Text → Text) (p : Text), Query.join w (r.onHost p) variants =
      r.onHost (p ++ '?' :: Text.joined ['&'] (variants.map (writeArgument w))) := by
    intro w p
    rw [onHost_append]
    unfold Query.join
    split
    next => exact absurd (List.forall₂_nil_right_iff.mp hvariants) hargs
    next => rfl
  simp only [Candidate.rebuilt, List.mem_cons, List.not_mem_nil, or_false] at h
  rcases h with rfl | rfl
  · rw [decode_onHost hr, hjoin]
    exact ⟨_, _, spells hplain hr hclear (.inr rfl), rfl, forall₂_written hplain hvariants
      hclear.clear hwritten fun b => Query.stands_plain hplain⟩
  · rw [hjoin]
    exact ⟨_, _, spells hplain hr hclear (.inl rfl), rfl, forall₂_written hplain hvariants
      hclear.clear hwritten fun b _ => Query.stands_encoded hplain⟩

/-- Each form of the URL restates the request. -/
theorem restates_of_mem_forms {form : Text} (h : form ∈ Candidate.forms r.url) :
    Restates r k form := by
  have hquery : r.query ≠ [] := fun hnil => hargs (by rw [hnil]; rfl)
  have hurl : r.url = r.onHost r.path ++ '?' :: r.query := by
    rw [url_eq_onHost, onHost_append]
    unfold behind
    split
    next hnil => exact absurd hnil hquery
    next => rfl
  have hbase : '?' ∉ r.onHost r.path := fun h =>
    (mem_onHost hr h).elim (fun h => absurd h.1 (by decide)) hr.question
  rw [hurl, Candidate.forms_query hbase hquery, ← hurl] at h
  rcases List.mem_append.mp h with h | h
  · simp only [List.mem_cons, List.not_mem_nil, or_false] at h
    rcases h with rfl | rfl
    · refine ⟨r.path, Text.fields '&' r.query, spells hplain hr hclear (.inl rfl), ?_,
        forall₂_transmitted hplain hclear.clear⟩
      rw [hurl, Text.joined_fields, onHost_append]
    · refine ⟨Percent.decode r.path, (Text.fields '&' r.query).map Percent.decode,
        spells hplain hr hclear (.inr rfl), ?_, forall₂_decoded hplain hclear.clear⟩
      rw [hurl, Percent.decode_append (by decide), decode_onHost hr, ← Query.decode_joined,
        Text.joined_fields, onHost_append]
  · obtain ⟨variants, hmem, hform⟩ := List.mem_flatMap.mp h
    simp only [List.mem_cons, List.not_mem_nil, or_false] at hmem
    rcases hmem with rfl | rfl | rfl
    · exact restates_rebuilt hplain hr hclear hargs (Query.self_variants _) hform
    · exact restates_rebuilt hplain hr hclear hargs (Query.index_variants _) hform
    · exact restates_rebuilt hplain hr hclear hargs (Query.reduce_variants _) hform

end

/-! ## Under a scheme -/

section
variable {r : Request} {k : Text}

/-- The URL up to its query has no mark, and ends in a separator only if a query follows. -/
theorem Spells.base {x : Request} {p : Text} (hp : Spells r k p) (hx : x.WellFormed) :
    Unmarked (k ++ ['=']) (x.onHost p) ∧
      (Query.others k (Query.arguments r.query) = [] →
        ∀ t c, x.onHost p = t ++ [c] → isSeparator c = false) := by
  have hfront : ∀ c ∈ x.onHost [], isSeparator c = false := fun c hc =>
    (mem_onHost hx hc).elim And.left fun hc => by cases hc
  have hbase : x.onHost p = x.onHost [] ++ p := x.onHost_append [] p
  refine ⟨?_, fun hothers t c h => ?_⟩
  · rw [hbase]
    exact hp.unmarked.append_left hfront
  · have hending := hp.ending hothers
    rcases List.eq_nil_or_concat p with rfl | ⟨q, d, rfl⟩
    · exact hfront c (by simp [h])
    · rw [List.concat_eq_append] at h hending
      rw [onHost_append] at h
      obtain rfl : d = c := by simpa using (List.append_inj' h rfl).2
      exact hending q d rfl

/-- A form of the URL, under whichever scheme, is on the host of the request. -/
theorem restates_of_rebuilt {protocol : Protocol} {form u : Text} (hr : r.WellFormed)
    (hform : Restates r k form) (h : Candidate.Rebuilt protocol form u) :
    ∃ s, (s = "http".toList ∨ s = "https".toList) ∧ ∃ p fs, Spells r k p ∧
      u = (r.under s).onHost (p ++ '?' :: Text.joined ['&'] fs) ∧
        List.Forall₂ (Stands k) (filled fs) (Query.arguments r.query) := by
  obtain ⟨p, fs, hp, rfl, hfs⟩ := hform
  rcases h with ⟨-, rfl⟩ | ⟨s, hs, rfl⟩
  · exact ⟨r.scheme, hr.scheme, p, fs, hp, rfl, hfs⟩
  · have hscheme : s = "http".toList ∨ s = "https".toList := by
      cases protocol <;> simp [Protocol.schemes] at hs <;> simp [hs]
    exact ⟨s, hscheme, p, fs, hp, withScheme_onHost hr s _, hfs⟩

end

end Http.Request

end AliasGate
