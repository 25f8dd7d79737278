import AliasGate.Proofs.Token.Candidates
import AliasGate.Proofs.Token.Finding

/-!
# Sign, then verify

A client signs the URL of its request and puts the token among the arguments, wherever it likes. The
guard takes the token out again, finds the URL that was signed, and lets the request pass.

* `Http.Request.strip_insertField`: stripping takes out exactly the argument that was put in.
* `Candidate.mem_urls_insertField`: what a client may sign under a protocol is a candidate of the
  request with the token.
* `Guard.judge_inserted_token`: the token is verified.
-/

namespace AliasGate

open Candidate (Marker Unmarked Whole isSeparator)

/-! ## Signatures -/

theorem Hmac.mem_signature {c : Char} {key data : Text} (h : c ∈ Hmac.signature key data) :
    Percent.isUnreserved c = true := by
  have hall : ∀ n < 256, (Text.hex 2 n).all Percent.isUnreserved = true := by decide +kernel
  obtain ⟨b, -, hc⟩ := List.mem_flatMap.mp h
  exact List.all_eq_true.mp (hall b.toNat b.toNat_lt) c hc

/-! ## Argument keys -/

section
variable {k : Text} (hplain : ∀ c ∈ k, Percent.isUnreserved c = true)
include hplain

/-- The reading of a token argument. -/
theorem Query.read_token {token : Text} (htoken : ∀ c ∈ token, Percent.isUnreserved c = true) :
    Query.read (k ++ '=' :: token) = (k, token) := by
  rw [Query.read_value (Percent.not_mem_of_unreserved hplain rfl),
    Percent.decodeForm_eq_self hplain, Percent.decodeForm_eq_self htoken]

/-- No argument key but `t` asks for transformations. -/
theorem Transformation.isKey_of_unreserved (ht : k ≠ "t".toList) :
    Transformation.isKey k = false := by
  have hkey : Transformation.isPlainKey k = false := by
    unfold Transformation.isPlainKey
    repeat' split
    next => exact absurd rfl ht
    next => exact absurd rfl (Percent.isUnreserved_ne (hplain '[' (by simp)) rfl)
    next => rfl
    next => rfl
  have hnewline : Text.before? ['\n'] k = none := by
    refine Option.eq_none_iff_forall_ne_some.mpr fun t h => ?_
    rw [Text.before?_eq_some_iff] at h
    exact Percent.not_mem_of_unreserved hplain (d := '\n') rfl (by simp [h])
  unfold Transformation.isKey Text.orBeforeNewline
  simp [hkey, hnewline]

end

/-! ## Putting in and taking out -/

namespace Http.Request

/-- Behind a separator of the URL each field begins. -/
theorem infix_of_mem_fields {fs : List Text} {f : Text} (h : f ∈ fs) {c : Char}
    (hc : isSeparator c = true) :
    ∃ d, isSeparator d = true ∧ d :: f <:+: c :: Text.joined ['&'] fs := by
  induction fs generalizing c with
  | nil => cases h
  | cons g fs ih =>
    rcases List.mem_cons.mp h with rfl | h
    · refine ⟨c, hc, [], ?_⟩
      cases fs with
      | nil => exact ⟨[], by rw [Text.joined, List.intercalate_singleton]; simp⟩
      | cons => exact ⟨_, by rw [Text.joined_cons_cons]; rfl⟩
    · obtain ⟨d, hd, hin⟩ := ih h (c := '&') rfl
      refine ⟨d, hd, hin.trans ⟨c :: g, [], ?_⟩⟩
      cases fs with
      | nil => cases h
      | cons => rw [Text.joined_cons_cons]; simp

section
variable {r : Request} {k : Text} (hplain : ∀ c ∈ k, Percent.isUnreserved c = true)
  (hunmarked : Unmarked (k ++ ['=']) r.url)
include hunmarked

theorem unmarked_base : Unmarked (k ++ ['=']) r.base := by
  refine hunmarked.mono ?_
  rw [url_eq]
  split
  · exact List.infix_rfl
  · exact ⟨[], _, rfl⟩

theorem unmarked_fields {f : Text} (h : f ∈ r.fields) :
    ¬(k ++ ['=']) <+: f ∧ Unmarked (k ++ ['=']) f := by
  obtain ⟨c, hc, hin⟩ := infix_of_mem_fields h (c := '?') rfl
  have hurl : c :: f <:+: r.url := by
    rw [url_eq, if_neg (List.ne_nil_of_mem h)]
    exact hin.trans ⟨r.base, [], List.append_nil _⟩
  exact ⟨(hunmarked.mono hurl).not_begins hc,
    hunmarked.mono (List.IsInfix.trans ⟨[c], [], by simp⟩ hurl)⟩

include hplain

/-- **Putting in and taking out.** Stripping takes out the argument that was put in, at whichever
position, and the separators that it brought along. -/
theorem strip_insertField (hend : ∀ t c, r.url = t ++ [c] → isSeparator c = false) {i : Nat}
    (hi : i ≤ r.fields.length) {token : Text} (htoken : '&' ∉ token) :
    Candidate.strip k (r.insertField i (k ++ '=' :: token)).url = r.url := by
  have hbegins : k ++ ['='] <+: k ++ '=' :: token := ⟨token, by simp⟩
  have hamp : '&' ∉ k ++ '=' :: token := by
    intro h
    rcases List.mem_append.mp h with h | h
    · exact Percent.not_mem_of_unreserved hplain rfl h
    · exact htoken ((List.mem_cons.mp h).resolve_left (by decide))
  obtain ⟨x, y, hfields, hinsert⟩ := fields_insertField hi hamp (by simp)
  have hwhole : ∀ f ∈ x ++ (k ++ '=' :: token) :: y, Whole (k ++ ['=']) f := by
    intro f hf
    rw [← hinsert] at hf
    refine ⟨not_mem_of_mem_fields hf, fun hnot => ?_⟩
    rw [hinsert] at hf
    have hmem : f ∈ r.fields := by
      rw [hfields]
      rcases List.mem_append.mp hf with hf | hf
      · exact List.mem_append_left y hf
      · rcases List.mem_cons.mp hf with rfl | hf
        · exact absurd hbegins hnot
        · exact List.mem_append_right x hf
    exact (unmarked_fields hunmarked hmem).2
  have hkept : Candidate.kept (k ++ ['=']) (x ++ (k ++ '=' :: token) :: y) = r.fields := by
    have hold : ∀ f ∈ r.fields, ¬(k ++ ['=']) <+: f := fun f hf => (unmarked_fields hunmarked hf).1
    rw [Candidate.kept_append, Candidate.kept_cons, if_pos hbegins, ← Candidate.kept_append,
      ← hfields, Candidate.kept_eq_self hold]
  rw [url_eq, hinsert, if_neg (by simp)]
  refine (Candidate.strip_fields (Candidate.marker_of_unreserved hplain)
    (unmarked_base hunmarked) hwhole).trans ?_
  rw [hkept]
  rw [url_eq] at hend ⊢
  split at hend
  next hnil =>
    rw [hnil, if_pos rfl]
    exact (Candidate.dropSeparators_concat rfl r.base).trans (Text.dropEndWhile_eq_self hend)
  next hne =>
    rw [if_neg hne]
    exact Text.dropEndWhile_eq_self hend

end

/-! ## Schemes -/

/-- The URLs that a client may sign under a protocol: as it is transmitted, or under the scheme or
either of the schemes that the protocol names. -/
def signableUrls (r : Request) : Protocol → List Text
  | .incoming => [r.url]
  | .http => [(r.under "http".toList).url]
  | .https => [(r.under "https".toList).url]
  | .both => [(r.under "http".toList).url, (r.under "https".toList).url]

theorem mem_signableUrls {r : Request} {protocol : Protocol} {url : Text} :
    url ∈ r.signableUrls protocol ↔
      protocol.schemes = [] ∧ url = r.url ∨
        ∃ s ∈ protocol.schemes, url = (r.under s).url := by
  cases protocol <;> simp [signableUrls, Protocol.schemes]

theorem unmarked_under {r : Request} {m s : Text} (hs : ∀ c ∈ s, isSeparator c = false)
    (h : Unmarked m r.url) : Unmarked m (r.under s).url := by
  rw [url_eq_rest] at h ⊢
  exact (h.mono ⟨r.scheme, [], List.append_nil _⟩).append_left hs

theorem under_concat {r : Request} {s t : Text} {c : Char} (h : (r.under s).url = t ++ [c]) :
    ∃ u, r.url = u ++ [c] := by
  rw [url_eq_rest] at h ⊢
  have hrest : (r.under s).rest = r.rest := rfl
  rw [hrest] at h
  rcases List.eq_nil_or_concat ("://".toList ++ r.rest) with hnil | ⟨u, d, hu⟩
  · cases hnil
  · rw [hu, List.concat_eq_append, ← List.append_assoc] at h ⊢
    obtain ⟨-, hd⟩ := List.append_inj' h rfl
    exact ⟨r.scheme ++ u, by rw [hd]⟩

/-- **Candidates of a signed request.** What a client may sign under a protocol is a candidate of
the request with the token. -/
theorem mem_urls_insertField {r : Request} {k : Text}
    (hscheme : r.scheme = "http".toList ∨ r.scheme = "https".toList)
    (hplain : ∀ c ∈ k, Percent.isUnreserved c = true) (hunmarked : Unmarked (k ++ ['=']) r.url)
    (hend : ∀ t c, r.url = t ++ [c] → isSeparator c = false) {i : Nat}
    (hi : i ≤ r.fields.length) {token : Text} (htoken : '&' ∉ token) {protocol : Protocol}
    {url : Text} (hurl : url ∈ r.signableUrls protocol) :
    url ∈ Candidate.urls (r.insertField i (k ++ '=' :: token)).url protocol k := by
  refine Candidate.mem_urls.mpr ⟨_, Candidate.self_mem_forms _, ?_⟩
  rcases mem_signableUrls.mp hurl with ⟨hnone, rfl⟩ | ⟨s, hs, rfl⟩
  · exact ⟨_, .inl ⟨hnone, rfl⟩, (strip_insertField hplain hunmarked hend hi htoken).symm⟩
  · have hplainScheme : ∀ c ∈ s, isSeparator c = false := by
      cases protocol <;>
        simp only [Protocol.schemes, List.mem_cons, List.not_mem_nil, or_false] at hs
      · subst hs
        exact Text.forall_mem_of_all (by decide)
      · subst hs
        exact Text.forall_mem_of_all (by decide)
      · rcases hs with rfl | rfl <;> exact Text.forall_mem_of_all (by decide)
    have hstrip := strip_insertField (r := r.under s) hplain
      (unmarked_under hplainScheme hunmarked)
      (fun t c h => by obtain ⟨u, hu⟩ := under_concat h; exact hend u c hu) hi htoken
    refine ⟨_, .inr ⟨s, hs, (withScheme_url ?_ s).symm⟩, hstrip.symm⟩
    exact hscheme

end Http.Request

/-! ## The verdict -/

namespace Guard

open Http.Request (signableUrls)

/-- **Sign, then verify.** On a request for which the guard demands a token, the keyed digest of one
of the `signableUrls`, inserted at any position among the arguments, is found and verified. -/
theorem judge_inserted_token {g : Guard} {e : Event} {response : Http.Response}
    {k privateKey url : Text} {i : Nat}
    (hmark : response.hasHeader Http.Response.shortUrlHeader = false)
    (hstrict : g.filter.isExempt e.request.transformationNames = false)
    (hscheme : e.request.scheme = "http".toList ∨ e.request.scheme = "https".toList)
    (hk : k ∈ g.signer.keys) (hplain : ∀ c ∈ k, Percent.isUnreserved c = true)
    (hpublic : k ≠ Http.Request.publicKeyArgument) (ht : k ≠ "t".toList)
    (hsign : ∀ data key, g.signer.sign k data key = .ok (Hmac.signature key data))
    (hnone : ∀ key ∈ g.signer.keys, e.request.argument? key = none)
    (hunmarked : Unmarked (k ++ ['=']) e.request.url)
    (hend : ∀ t c, e.request.url = t ++ [c] → isSeparator c = false)
    (hkey : e.keys.privateKey? e.request.publicKey = some privateKey)
    (hi : i ≤ e.request.fields.length) (hurl : url ∈ e.request.signableUrls e.protocol) :
    g.judge
        { e with request := e.request.insertField i (k ++ '=' :: Hmac.signature privateKey url) }
        response = .ok .verified := by
  have htoken : ∀ c ∈ Hmac.signature privateKey url, Percent.isUnreserved c = true :=
    fun _ => Hmac.mem_signature
  have hamp : '&' ∉ Hmac.signature privateKey url := fun h =>
    Percent.isUnreserved_ne (htoken _ h) rfl rfl
  have hfield : '&' ∉ k ++ '=' :: Hmac.signature privateKey url := by
    intro h
    rcases List.mem_append.mp h with h | h
    · exact Percent.not_mem_of_unreserved hplain rfl h
    · exact hamp ((List.mem_cons.mp h).resolve_left (by decide))
  have hne : k ++ '=' :: Hmac.signature privateKey url ≠ [] := by simp
  have hread := Query.read_token hplain htoken
  have hother : ∀ {name}, name ≠ k →
      (e.request.insertField i (k ++ '=' :: Hmac.signature privateKey url)).argument? name =
        e.request.argument? name :=
    fun h => Http.Request.argument?_insertField_of_ne hi hfield hne hread h
  have hfirst : FirstToken g.signer.keys
      (e.request.insertField i (k ++ '=' :: Hmac.signature privateKey url)) k
      (Hmac.signature privateKey url) := by
    obtain ⟨before, after, hkeys, hbefore⟩ := List.eq_append_cons_of_mem hk
    refine ⟨before, after, hkeys, fun key hmem => ?_, ?_⟩
    · rw [hother fun h => hbefore (h ▸ hmem)]
      exact hnone key (hkeys ▸ List.mem_append_left _ hmem)
    · exact Http.Request.argument?_insertField_self hi hfield hne hread (hnone k hk)
  have htransformations :
      (e.request.insertField i (k ++ '=' :: Hmac.signature privateKey url)).transformations =
        e.request.transformations :=
    Http.Request.transformations_insertField hi hfield hne hread
      (Transformation.isKey_of_unreserved hplain ht)
  have hkey' : e.keys.privateKey?
      (e.request.insertField i (k ++ '=' :: Hmac.signature privateKey url)).publicKey =
        some privateKey := by
    rw [← hkey, Http.Request.publicKey, hother hpublic.symm]
    rfl
  refine judge_verified hmark ?_ hfirst hkey' ?_ (hsign url privateKey)
    fun u => ⟨_, hsign u privateKey⟩
  · rw [Http.Request.transformationNames, htransformations]
    exact hstrict
  · exact Http.Request.mem_urls_insertField hscheme hplain hunmarked hend hi hamp hurl

/-- A guard with the keyed digest under the default argument key. -/
def plainGuard : Guard := ⟨.hmac [], ⟨[], []⟩, guardedEvents, defaultPriority⟩

/-- A request with an argument without a value, an empty one, and one with a question mark. -/
def unsignedEvent : Event where
  name := "user.get.pre".toList
  request :=
    ⟨"GET".toList, "https".toList, "imbo".toList, "/users/christer".toList, "a&&b=?x=1".toList, [],
      { user := some "christer".toList }, [], 970⟩
  config := { Settings.standard with protocol := .both }
  keys := [("christer".toList, "key".toList)]

/-- The token for the other scheme between the arguments of a request. -/
theorem judge_inserted_token_between :
    plainGuard.judge
        { unsignedEvent with
          request := unsignedEvent.request.insertField 2 ("accessToken".toList ++ '=' ::
            Hmac.signature "key".toList "http://imbo/users/christer?a&&b=?x=1".toList) }
        .initial = .ok .verified := by
  refine judge_inserted_token rfl rfl (.inr rfl) List.mem_cons_self
    (Text.forall_mem_of_all (by decide)) (by decide) (by decide) (fun _ _ => rfl)
    (by decide +kernel) ?_ ?_ (by decide +kernel) (by decide +kernel) List.mem_cons_self
  · intro c hc
    rcases Candidate.isSeparator_iff.mp hc with rfl | rfl <;> decide +kernel
  · intro t c h
    have hlast : unsignedEvent.request.url.getLast? = some '1' := by decide +kernel
    rw [h, List.getLast?_concat] at hlast
    cases hlast
    rfl

end Guard

end AliasGate
