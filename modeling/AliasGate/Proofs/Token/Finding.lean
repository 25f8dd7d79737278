import AliasGate.Proofs.Token.Signing
import AliasGate.Token.Guard

/-!
# What the guard finds

The verdict of a guard on a response that no public short URL has marked, with all that the guard
went by.

* `Guard.Finding`: one constructor for each ending of `Guard.judge`, with its conditions.
* `Guard.judge_finding`: the guard's verdict is always such a finding. Later proofs take the
  constructors apart and never look at `judge` again.
* `Guard.judge_eq_error_iff`: there is none exactly if the signer fails first (`Unsignable`).
-/

namespace AliasGate

/-! ## The argument that carries the token -/

/-- `key` is the first of the argument keys that the query has, and `token` its value. -/
def FirstToken (keys : List Text) (r : Http.Request) (key token : Text) : Prop :=
  ∃ before after, keys = before ++ key :: after ∧ (∀ k ∈ before, r.argument? k = none) ∧
    r.argument? key = some token

theorem FirstToken.mem {keys : List Text} {r : Http.Request} {key token : Text}
    (h : FirstToken keys r key token) : key ∈ keys := by
  obtain ⟨before, after, rfl, -, -⟩ := h
  exact List.mem_append_right before List.mem_cons_self

namespace Guard

theorem token?_eq_some_iff {g : Guard} {r : Http.Request} {key token : Text} :
    g.token? r = some (key, token) ↔ FirstToken g.signer.keys r key token := by
  unfold token? FirstToken
  rw [List.findSome?_eq_some_iff]
  constructor
  · rintro ⟨before, k, after, hkeys, hk, hbefore⟩
    simp only [Option.map_eq_some_iff, Prod.mk.injEq] at hk
    obtain ⟨t, ht, rfl, rfl⟩ := hk
    exact ⟨before, after, hkeys, by simpa using hbefore, ht⟩
  · rintro ⟨before, after, hkeys, hbefore, ht⟩
    exact ⟨before, key, after, hkeys, by simp [ht], by simpa using hbefore⟩

theorem token?_eq_none_iff {g : Guard} {r : Http.Request} :
    g.token? r = none ↔ ∀ key ∈ g.signer.keys, r.argument? key = none := by
  simp [token?]

/-! ## Signatures of candidates -/

variable {s : Signer} {key privateKey token : Text} {urls : List Text}

theorem signs_true (h : signs s key privateKey token urls = .ok true) :
    ∃ url ∈ urls, s.sign key url privateKey = .ok token := by
  induction urls with
  | nil => cases h
  | cons url urls ih =>
    simp only [signs, bind, Except.bind] at h
    rcases hs : s.sign key url privateKey with f | t
    · rw [hs] at h
      cases h
    · simp only [hs] at h
      split at h
      next ht => exact ⟨url, List.mem_cons_self, ht ▸ hs⟩
      next =>
        obtain ⟨u, hu, hsign⟩ := ih h
        exact ⟨u, List.mem_cons_of_mem url hu, hsign⟩

/-- The candidate is signed, and by something else than the token. -/
def SignedOtherwise (s : Signer) (key privateKey token url : Text) : Prop :=
  ∃ t, s.sign key url privateKey = .ok t ∧ t ≠ token

theorem signs_false (h : signs s key privateKey token urls = .ok false) :
    ∀ url ∈ urls, SignedOtherwise s key privateKey token url := by
  induction urls with
  | nil => exact fun _ hu => absurd hu List.not_mem_nil
  | cons url urls ih =>
    simp only [signs, bind, Except.bind] at h
    rcases hs : s.sign key url privateKey with f | t
    · rw [hs] at h
      cases h
    · simp only [hs] at h
      split at h
      · cases h
      next ht =>
        intro u hu
        rcases List.mem_cons.mp hu with rfl | hu
        · exact ⟨t, hs, ht⟩
        · exact ih h u hu

theorem signs_error {f : Failure} (h : signs s key privateKey token urls = .error f) :
    ∃ before url after, urls = before ++ url :: after ∧
      (∀ u ∈ before, SignedOtherwise s key privateKey token u) ∧
      s.sign key url privateKey = .error f := by
  induction urls with
  | nil => cases h
  | cons url urls ih =>
    simp only [signs, bind, Except.bind] at h
    rcases hs : s.sign key url privateKey with f' | t
    · rw [hs] at h
      cases h
      exact ⟨[], url, urls, rfl, fun _ hu => absurd hu List.not_mem_nil, hs⟩
    · simp only [hs] at h
      split at h
      · cases h
      next ht =>
        obtain ⟨before, u, after, rfl, hbefore, hu⟩ := ih h
        refine ⟨url :: before, u, after, rfl, fun v hv => ?_, hu⟩
        rcases List.mem_cons.mp hv with rfl | hv
        · exact ⟨t, hs, ht⟩
        · exact hbefore v hv

/-- A signer that fails on a candidate before it signs one by the token fails the search. -/
theorem signs_append_error {before after : List Text} {url : Text} {f : Failure}
    (hother : ∀ u ∈ before, SignedOtherwise s key privateKey token u)
    (hsign : s.sign key url privateKey = .error f) :
    signs s key privateKey token (before ++ url :: after) = .error f := by
  induction before with
  | nil => simp only [List.nil_append, signs, bind, Except.bind, hsign]
  | cons u before ih =>
    obtain ⟨⟨t, ht, hne⟩, hbefore⟩ := List.forall_mem_cons.mp hother
    simp only [List.cons_append, signs, bind, Except.bind, ht, if_neg hne, ih hbefore]

/-! ## Findings -/

/-- The URLs that a token in the query may sign. -/
def candidates (e : Event) (key : Text) : List Text :=
  Candidate.urls e.request.url e.protocol key

/-- A verdict on an event whose response is not marked, or the failure of a signer, with what it
rests on. -/
inductive Finding (g : Guard) (e : Event) : Except Failure Verdict → Prop
  | exempt (hexempt : g.filter.isExempt e.request.transformationNames = true) :
    Finding g e (.ok .exempt)
  | missing (hstrict : g.filter.isExempt e.request.transformationNames = false)
    (hnone : ∀ key ∈ g.signer.keys, e.request.argument? key = none) : Finding g e (.ok .missing)
  | unknownKey {key token : Text}
    (hstrict : g.filter.isExempt e.request.transformationNames = false)
    (hfirst : FirstToken g.signer.keys e.request key token)
    (hkey : e.keys.privateKey? e.request.publicKey = none) : Finding g e (.ok .unknownKey)
  | verified {key token privateKey url : Text}
    (hstrict : g.filter.isExempt e.request.transformationNames = false)
    (hfirst : FirstToken g.signer.keys e.request key token)
    (hkey : e.keys.privateKey? e.request.publicKey = some privateKey)
    (hurl : url ∈ candidates e key) (hsign : g.signer.sign key url privateKey = .ok token) :
    Finding g e (.ok .verified)
  | incorrect {key token privateKey : Text}
    (hstrict : g.filter.isExempt e.request.transformationNames = false)
    (hfirst : FirstToken g.signer.keys e.request key token)
    (hkey : e.keys.privateKey? e.request.publicKey = some privateKey)
    (hother : ∀ url ∈ candidates e key, SignedOtherwise g.signer key privateKey token url) :
    Finding g e (.ok .incorrect)
  | unsigned {key token privateKey url : Text} {before after : List Text} {f : Failure}
    (hstrict : g.filter.isExempt e.request.transformationNames = false)
    (hfirst : FirstToken g.signer.keys e.request key token)
    (hkey : e.keys.privateKey? e.request.publicKey = some privateKey)
    (hurls : candidates e key = before ++ url :: after)
    (hother : ∀ u ∈ before, SignedOtherwise g.signer key privateKey token u)
    (hsign : g.signer.sign key url privateKey = .error f) : Finding g e (.error f)

theorem judgeToken_finding {g : Guard} {e : Event} {key token : Text}
    (hstrict : g.filter.isExempt e.request.transformationNames = false)
    (hfirst : FirstToken g.signer.keys e.request key token) :
    Finding g e (g.judgeToken e key token) := by
  unfold judgeToken
  split
  next hkey => exact .unknownKey hstrict hfirst hkey
  next privateKey hkey =>
    simp only [bind, Except.bind]
    rcases hs : signs g.signer key privateKey token (Candidate.urls e.request.url e.protocol key)
      with f | _ | _
    · obtain ⟨before, url, after, hurls, hother, hsign⟩ := signs_error hs
      exact .unsigned hstrict hfirst hkey hurls hother hsign
    · exact .incorrect hstrict hfirst hkey (signs_false hs)
    · obtain ⟨url, hurl, hsign⟩ := signs_true hs
      exact .verified hstrict hfirst hkey hurl hsign

/-- Whatever the guard says about an unmarked response, it says for a reason. -/
theorem judge_finding {g : Guard} {e : Event} {response : Http.Response}
    (h : response.hasHeader Http.Response.shortUrlHeader = false) :
    Finding g e (g.judge e response) := by
  unfold judge
  rw [if_neg (by simp [h])]
  split
  next hexempt => exact .exempt hexempt
  next hexempt =>
    have hstrict : g.filter.isExempt e.request.transformationNames = false := by
      simpa using hexempt
    split
    next hnone => exact .missing hstrict (token?_eq_none_iff.mp hnone)
    next key token hsome =>
      exact judgeToken_finding hstrict (token?_eq_some_iff.mp hsome)

/-- The request needs a token and carries one for a known public key, and the signer fails on a form
of its URL before it signs one by that token. -/
structure Unsignable (g : Guard) (e : Event) (f : Failure) : Prop where
  strict : g.filter.isExempt e.request.transformationNames = false
  fails : ∃ key token privateKey before url after, FirstToken g.signer.keys e.request key token ∧
    e.keys.privateKey? e.request.publicKey = some privateKey ∧
    candidates e key = before ++ url :: after ∧
    (∀ u ∈ before, SignedOtherwise g.signer key privateKey token u) ∧
    g.signer.sign key url privateKey = .error f

/-- Only then there is no verdict. -/
theorem judge_eq_error_iff {g : Guard} {e : Event} {response : Http.Response} {f : Failure}
    (h : response.hasHeader Http.Response.shortUrlHeader = false) :
    g.judge e response = .error f ↔ g.Unsignable e f := by
  constructor
  · intro herror
    have hfinding := judge_finding (g := g) (e := e) h
    rw [herror] at hfinding
    cases hfinding with
    | unsigned hstrict hfirst hkey hurls hother hsign =>
      exact ⟨hstrict, _, _, _, _, _, _, hfirst, hkey, hurls, hother, hsign⟩
  · rintro ⟨hstrict, key, token, privateKey, before, url, after, hfirst, hkey, hurls, hother, hsign⟩
    have hsigns : signs g.signer key privateKey token
        (Candidate.urls e.request.url e.protocol key) = .error f := by
      rw [show Candidate.urls e.request.url e.protocol key = _ from hurls]
      exact signs_append_error hother hsign
    unfold judge
    rw [if_neg (by simp [h]), if_neg (by simp [hstrict]), token?_eq_some_iff.mpr hfirst]
    simp only [judgeToken, hkey, hsigns, bind, Except.bind]

theorem firstToken_unique {g : Guard} {r : Http.Request} {key key' token token' : Text}
    (h : FirstToken g.signer.keys r key token) (h' : FirstToken g.signer.keys r key' token') :
    key = key' ∧ token = token' := by
  rw [← token?_eq_some_iff] at h h'
  exact Prod.mk.inj (Option.some.inj (h.symm.trans h'))

/-- A token is verified if it signs a candidate and every candidate can be signed. -/
theorem judge_verified {g : Guard} {e : Event} {response : Http.Response}
    {key token privateKey url : Text}
    (hmark : response.hasHeader Http.Response.shortUrlHeader = false)
    (hstrict : g.filter.isExempt e.request.transformationNames = false)
    (hfirst : FirstToken g.signer.keys e.request key token)
    (hkey : e.keys.privateKey? e.request.publicKey = some privateKey)
    (hurl : url ∈ candidates e key) (hsign : g.signer.sign key url privateKey = .ok token)
    (htotal : ∀ u, ∃ t, g.signer.sign key u privateKey = .ok t) :
    g.judge e response = .ok .verified := by
  have hfinding := judge_finding (g := g) (e := e) hmark
  generalize g.judge e response = j at hfinding
  cases hfinding with
  | exempt hexempt =>
    rw [hstrict] at hexempt
    cases hexempt
  | missing _ hnone =>
    obtain ⟨-, -, -, -, htoken⟩ := id hfirst
    rw [hnone key hfirst.mem] at htoken
    cases htoken
  | unknownKey _ hfirst' hkey' =>
    rw [hkey] at hkey'
    cases hkey'
  | verified => rfl
  | incorrect _ hfirst' hkey' hother =>
    obtain ⟨rfl, rfl⟩ := firstToken_unique hfirst hfirst'
    rw [hkey] at hkey'
    cases hkey'
    obtain ⟨t, ht, hne⟩ := hother url hurl
    rw [hsign] at ht
    cases ht
    exact absurd rfl hne
  | unsigned _ hfirst' hkey' _ _ herror =>
    obtain ⟨rfl, rfl⟩ := firstToken_unique hfirst hfirst'
    rw [hkey] at hkey'
    cases hkey'
    obtain ⟨t, ht⟩ := htotal _
    rw [ht] at herror
    cases herror

/-- A marked response is let pass. -/
theorem judge_marked {g : Guard} {e : Event} {response : Http.Response}
    (h : response.hasHeader Http.Response.shortUrlHeader = true) :
    g.judge e response = .ok .bypassed := by
  unfold judge
  rw [if_pos h]

/-- A guard whose signer never fails always has a verdict. -/
theorem judge_ne_error {g : Guard} (htotal : g.signer.Total) (e : Event)
    (response : Http.Response) (f : Failure) : g.judge e response ≠ .error f := by
  intro herror
  cases hmark : response.hasHeader Http.Response.shortUrlHeader with
  | true =>
    rw [judge_marked hmark] at herror
    cases herror
  | false =>
    obtain ⟨-, key, token, privateKey, before, url, after, hfirst, -, -, -, hsign⟩ :=
      (judge_eq_error_iff hmark).mp herror
    obtain ⟨t, ht⟩ := htotal key hfirst.mem url privateKey
    rw [ht] at hsign
    cases hsign

end Guard

end AliasGate
