import AliasGate.Proofs.Token.Candidates

/-!
# URLs in parts

A URL tells scheme, host, path and query, if each of them is what it should be.

* `Http.Request.WellFormed`: a scheme, a host and a path that are told apart.
* `Http.Request.onHost`: a text behind a scheme and a host.
* `Http.Request.parts_of_url`: a request has the parts that its URL shows.
-/

namespace AliasGate.Http.Request

open Candidate (behind isSeparator)

/-- A request with one of the two schemes, whose host and path are told apart in its URL. -/
structure WellFormed (r : Request) : Prop where
  scheme : r.scheme = "http".toList ∨ r.scheme = "https".toList
  host : ∀ c ∈ r.host, c ≠ '/' ∧ c ≠ '?' ∧ c ≠ '&' ∧ c ≠ '%'
  path : r.path = [] ∨ ['/'] <+: r.path
  question : '?' ∉ r.path

/-- A text behind the scheme and the host of a request. -/
def onHost (r : Request) (s : Text) : Text := r.scheme ++ ("://".toList ++ (r.host ++ s))

theorem onHost_append (r : Request) (s t : Text) : r.onHost (s ++ t) = r.onHost s ++ t := by
  simp only [onHost, List.append_assoc]

theorem url_eq_onHost (r : Request) : r.url = r.onHost (r.path ++ behind r.query) := by
  cases hquery : r.query with
  | nil => simp [url, onHost, behind, hquery]
  | cons c query => simp [url, onHost, behind, hquery]

theorem WellFormed.under {r : Request} {s : Text} (hr : r.WellFormed)
    (hs : s = "http".toList ∨ s = "https".toList) : (r.under s).WellFormed :=
  ⟨hs, hr.host, hr.path, hr.question⟩

theorem withScheme_onHost {r : Request} (hr : r.WellFormed) (s t : Text) :
    Candidate.withScheme s (r.onHost t) = (r.under s).onHost t :=
  Candidate.withScheme_append hr.scheme s (r.host ++ t)

/-- Neither scheme nor host has a character that divides or escapes. -/
theorem mem_onHost {r : Request} (hr : r.WellFormed) {s : Text} {c : Char} (h : c ∈ r.onHost s) :
    isSeparator c = false ∧ c ≠ '%' ∨ c ∈ s := by
  have hhttp : ∀ c ∈ "http".toList, isSeparator c = false ∧ c ≠ '%' :=
    Text.forall_mem_of_all (by decide)
  have hhttps : ∀ c ∈ "https".toList, isSeparator c = false ∧ c ≠ '%' :=
    Text.forall_mem_of_all (by decide)
  have hmark : ∀ c ∈ "://".toList, isSeparator c = false ∧ c ≠ '%' :=
    Text.forall_mem_of_all (by decide)
  rcases List.mem_append.mp h with h | h
  · rcases hr.scheme with hs | hs
    · exact .inl (hhttp c (hs ▸ h))
    · exact .inl (hhttps c (hs ▸ h))
  · rcases List.mem_append.mp h with h | h
    · exact .inl (hmark c h)
    · rcases List.mem_append.mp h with h | h
      · obtain ⟨-, hquestion, hamp, hpercent⟩ := hr.host c h
        exact .inl ⟨Candidate.isSeparator_eq_false hquestion hamp, hpercent⟩
      · exact .inr h

theorem decode_onHost {r : Request} (hr : r.WellFormed) (s : Text) :
    Percent.decode (r.onHost s) = r.onHost (Percent.decode s) := by
  have hempty : ∀ t : Text, r.onHost t = r.onHost [] ++ t := fun t => r.onHost_append [] t
  rw [hempty s, hempty (Percent.decode s)]
  refine Percent.decode_append_left (fun h => ?_) s
  rcases mem_onHost hr h with h | h
  · exact h.2 rfl
  · cases h

/-- The parts of a request are told by its URL. -/
theorem parts_of_url {r r' : Request} {p query : Text} (hr : r.WellFormed) (hr' : r'.WellFormed)
    (hp : p = [] ∨ ['/'] <+: p) (hquestion : '?' ∉ p)
    (h : r'.url = r.onHost (p ++ behind query)) :
    r'.host = r.host ∧ r'.path = p ∧ r'.query = query := by
  have hcolon : ∀ {x : Request}, x.WellFormed → ':' ∉ x.scheme := by
    intro x hx
    rcases hx.scheme with hs | hs <;> rw [hs] <;> decide
  have hmark : ∀ t : Text, "://".toList ++ t = [] ∨ ∃ u, "://".toList ++ t = ':' :: u :=
    fun t => .inr ⟨['/', '/'] ++ t, rfl⟩
  have hbehind : ∀ q : Text, behind q = [] ∨ ∃ t, behind q = '?' :: t := by
    rintro (_ | ⟨c, q⟩)
    · exact .inl rfl
    · exact .inr ⟨c :: q, rfl⟩
  have hslash : ∀ {q : Text}, q = [] ∨ ['/'] <+: q → q = [] ∨ ∃ t, q = '/' :: t := by
    rintro q (rfl | ⟨t, rfl⟩)
    · exact .inl rfl
    · exact .inr ⟨t, rfl⟩
  have hfront : ∀ {x : Request} {q : Text}, x.WellFormed → '?' ∉ q → '?' ∉ x.host ++ q := by
    intro x q hx hq hmem
    rcases List.mem_append.mp hmem with hmem | hmem
    · exact (hx.host _ hmem).2.1 rfl
    · exact hq hmem
  rw [url_eq_onHost] at h
  obtain ⟨-, hrest⟩ := Text.append_inj_of_not_mem (hcolon hr') (hcolon hr) (hmark _) (hmark _) h
  have hrest := List.append_cancel_left hrest
  rw [← List.append_assoc, ← List.append_assoc] at hrest
  obtain ⟨hfronts, hqueries⟩ := Text.append_inj_of_not_mem (hfront hr' hr'.question)
    (hfront hr hquestion) (hbehind _) (hbehind _) hrest
  obtain ⟨hhost, hpath⟩ := Text.append_inj_of_not_mem (fun hmem => (hr'.host _ hmem).1 rfl)
    (fun hmem => (hr.host _ hmem).1 rfl) (hslash hr'.path) (hslash hp) hfronts
  exact ⟨hhost, hpath, Candidate.behind_inj hqueries⟩

end AliasGate.Http.Request
