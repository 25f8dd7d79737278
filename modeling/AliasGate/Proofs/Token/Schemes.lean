import AliasGate.Proofs.Token.Binding

/-!
# Schemes of candidates

A scheme goes through decoding, joining and stripping as it is, so that the candidates under two
schemes differ in nothing else.

* `Candidate.urls_onScheme`: the candidates of a URL, from what stands behind its scheme.
* `Guard.judge_eq_verified_iff`: what the verdict "verified" rests on, as an equivalence.
* `Guard.judge_under_protocols`: how candidates and verdicts under the protocols are related.
-/

namespace AliasGate

theorem Text.cut_append_left {α : Type} [DecidableEq α] {sep : α} {s : List α} (h : sep ∉ s)
    (t : List α) : Text.cut sep (s ++ t) = (s ++ (Text.cut sep t).1, (Text.cut sep t).2) := by
  induction s with
  | nil => rfl
  | cons c s ih =>
    have hc : c ≠ sep := fun hc => h (hc ▸ List.mem_cons_self)
    rw [List.cons_append, cut, if_neg hc, ih fun hs => h (List.mem_cons_of_mem c hs)]
    rfl

namespace Candidate

/-! ## Beginnings that stay -/

theorem join_append (write : Text → Text) (s base : Text) (args : List Query.Argument) :
    Query.join write (s ++ base) args = s ++ Query.join write base args := by
  cases args with
  | nil => rfl
  | cons a args => exact List.append_assoc s base _

/-- A beginning without escapes and question marks is the beginning of every form. -/
theorem forms_append {s : Text} (hquestion : '?' ∉ s) (hpercent : '%' ∉ s) (t : Text) :
    forms (s ++ t) = (forms t).map (s ++ ·) := by
  have hrebuilt : ∀ base args, rebuilt (s ++ base) args = (rebuilt base args).map (s ++ ·) := by
    intro base args
    simp only [rebuilt, Percent.decode_append_left hpercent, join_append, List.map_cons,
      List.map_nil]
  unfold forms
  rw [Text.cut_append_left hquestion, Percent.decode_append_left hpercent]
  obtain ⟨base, query⟩ := Text.cut '?' t
  cases hquery : query.getD [] with
  | nil => simp only [hquery, List.map_append, List.map_cons, List.map_nil]
  | cons c q =>
    simp only [hquery, hrebuilt, List.flatMap_cons, List.flatMap_nil, List.map_append,
      List.map_cons, List.map_nil]

/-- A beginning without separators is not stripped. -/
theorem strip_append {s : Text} (hs : ∀ c ∈ s, isSeparator c = false) (hne : s ≠ [])
    (key t : Text) : strip key (s ++ t) = s ++ strip key t := by
  have hself : Text.dropEndWhile isSeparator s = s :=
    Text.dropEndWhile_eq_self fun t c h => hs c (h ▸ List.mem_append_right t List.mem_cons_self)
  unfold strip
  rw [removeFrom_plain hs hne (fun h => by cases h), Text.dropEndWhile_append]
  split
  next h => rw [hself, h, List.append_nil]
  next => rfl

/-! ## One scheme or another -/

/-- A URL from its scheme and what follows. -/
def onScheme (scheme s : Text) : Text := scheme ++ ("://".toList ++ s)

theorem onScheme_eq_append (scheme s : Text) :
    onScheme scheme s = (scheme ++ "://".toList) ++ s := (List.append_assoc ..).symm

/-- The schemes of candidates, if the URL came under a given one. -/
def schemesFor (protocol : Protocol) (scheme : Text) : List Text :=
  match protocol.schemes with
  | [] => [scheme]
  | schemes => schemes

theorem mem_schemes {protocol : Protocol} {x : Text} (h : x ∈ protocol.schemes) :
    x ∈ Protocol.both.schemes := by
  cases protocol with
  | incoming => cases h
  | http => exact List.mem_cons.mpr (.inl (List.mem_singleton.mp h))
  | https => exact List.mem_cons_of_mem _ h
  | both => exact h

theorem mem_schemesFor {protocol : Protocol} {scheme x : Text}
    (hscheme : scheme ∈ Protocol.both.schemes) (h : x ∈ schemesFor protocol scheme) :
    x ∈ Protocol.both.schemes := by
  unfold schemesFor at h
  split at h
  next => exact List.mem_singleton.mp h ▸ hscheme
  next => exact mem_schemes h

variable {scheme : Text} (hscheme : scheme ∈ Protocol.both.schemes)
include hscheme

theorem scheme_plain : ∀ c ∈ scheme ++ "://".toList, isSeparator c = false ∧ c ≠ '%' := by
  have hall : ∀ x ∈ Protocol.both.schemes, (x ++ "://".toList).all
      (fun c => decide (isSeparator c = false ∧ c ≠ '%')) = true := by decide
  exact Text.forall_mem_of_all (hall scheme hscheme)

theorem forms_onScheme (s : Text) : forms (onScheme scheme s) = (forms s).map (onScheme scheme) := by
  have hquestion : '?' ∉ scheme ++ "://".toList := fun h => by
    have hc := (scheme_plain hscheme '?' h).1
    cases hc
  have hpercent : '%' ∉ scheme ++ "://".toList := fun h => (scheme_plain hscheme '%' h).2 rfl
  rw [onScheme_eq_append, forms_append hquestion hpercent]
  exact List.map_congr_left fun t _ => (onScheme_eq_append scheme t).symm

theorem strip_onScheme (key s : Text) :
    strip key (onScheme scheme s) = onScheme scheme (strip key s) := by
  have hne : scheme ++ "://".toList ≠ [] := by simp
  rw [onScheme_eq_append, strip_append (fun c hc => (scheme_plain hscheme c hc).1) hne,
    onScheme_eq_append]

theorem withScheme_onScheme (x s : Text) : withScheme x (onScheme scheme s) = onScheme x s :=
  withScheme_append (by simpa [Protocol.schemes] using hscheme) x s

theorem underSchemes_onScheme (protocol : Protocol) (ss : List Text) :
    underSchemes protocol.schemes (ss.map (onScheme scheme)) =
      ss.flatMap fun s => (schemesFor protocol scheme).map fun x => onScheme x s := by
  unfold underSchemes schemesFor
  cases protocol.schemes with
  | nil => exact List.map_eq_flatMap
  | cons x xs =>
    rw [List.flatMap_map]
    refine congrArg List.flatten (List.map_congr_left fun s _ => ?_)
    exact List.map_congr_left fun x _ => withScheme_onScheme hscheme x s

/-- The candidates are the stripped forms of what follows the scheme, under each of the schemes. -/
theorem urls_onScheme (s : Text) (protocol : Protocol) (key : Text) :
    urls (onScheme scheme s) protocol key =
      distinct ((forms s).flatMap fun t =>
        (schemesFor protocol scheme).map fun x => onScheme x (strip key t)) := by
  unfold urls
  rw [forms_onScheme hscheme, underSchemes_onScheme hscheme, List.map_flatMap]
  refine congrArg distinct (congrArg List.flatten (List.map_congr_left fun t _ => ?_))
  rw [List.map_map]
  refine List.map_congr_left fun x hx => ?_
  exact strip_onScheme (mem_schemesFor hscheme hx) key t

theorem mem_urls_onScheme {s key u : Text} {protocol : Protocol} :
    u ∈ urls (onScheme scheme s) protocol key ↔
      ∃ t ∈ forms s, ∃ x ∈ schemesFor protocol scheme, onScheme x (strip key t) = u := by
  rw [urls_onScheme hscheme, mem_distinct, List.mem_flatMap]
  simp only [List.mem_map]

omit hscheme

theorem distinct_filter (p : Text → Bool) (urls : List Text) :
    (distinct urls).filter p = distinct (urls.filter p) := by
  induction urls with
  | nil => rfl
  | cons u urls ih =>
    simp only [distinct, List.filter_cons]
    split
    next =>
      rw [distinct, ← ih, List.filter_filter, List.filter_filter]
      simp only [Bool.and_comm]
    next hu =>
      rw [← ih, List.filter_filter]
      refine List.filter_congr fun v _ => ?_
      by_cases hv : v = u
      · simp [hv, hu]
      · simp [hv]

/-- A URL has the scheme. -/
def hasScheme (scheme url : Text) : Bool := (scheme ++ "://".toList).isPrefixOf url

theorem hasScheme_self (scheme s : Text) : hasScheme scheme (onScheme scheme s) = true := by
  rw [hasScheme, onScheme_eq_append, List.isPrefixOf_iff_prefix]
  exact List.prefix_append _ s

theorem hasScheme_https (s : Text) : hasScheme "http".toList (onScheme "https".toList s) = false :=
  rfl

include hscheme

/-- The candidates under both schemes that have the first one are those under that scheme. -/
theorem urls_both_http (s key : Text) :
    (urls (onScheme scheme s) .both key).filter (hasScheme "http".toList) =
      urls (onScheme scheme s) .http key := by
  rw [urls_onScheme hscheme, urls_onScheme hscheme, distinct_filter, List.filter_flatMap]
  refine congrArg distinct (congrArg List.flatten (List.map_congr_left fun t _ => ?_))
  show [onScheme "http".toList _, onScheme "https".toList _].filter _ = [onScheme _ _]
  rw [List.filter_cons_of_pos (hasScheme_self _ _),
    List.filter_cons_of_neg (by rw [hasScheme_https]; decide), List.filter_nil]

/-- The others are those under the second one. -/
theorem urls_both_https (s key : Text) :
    (urls (onScheme scheme s) .both key).filter (fun u => !hasScheme "http".toList u) =
      urls (onScheme scheme s) .https key := by
  rw [urls_onScheme hscheme, urls_onScheme hscheme, distinct_filter, List.filter_flatMap]
  refine congrArg distinct (congrArg List.flatten (List.map_congr_left fun t _ => ?_))
  show [onScheme "http".toList _, onScheme "https".toList _].filter _ = [onScheme _ _]
  rw [List.filter_cons_of_neg (by rw [hasScheme_self]; decide),
    List.filter_cons_of_pos (by rw [hasScheme_https]; decide), List.filter_nil]

/-- Unless the scheme that came in is kept, it does not matter. -/
theorem urls_scheme_free {protocol : Protocol} (h : protocol ≠ .incoming) (s key : Text) :
    urls (onScheme scheme s) protocol key = urls (onScheme "http".toList s) protocol key := by
  have hschemes : schemesFor protocol scheme = schemesFor protocol "http".toList := by
    cases protocol with
    | incoming => exact absurd rfl h
    | http | https | both => rfl
  rw [urls_onScheme hscheme, urls_onScheme (by decide), hschemes]

/-- If it is kept, the candidates are those under the protocol that asks for it. -/
theorem urls_incoming {protocol : Protocol} (h : protocol.schemes = [scheme]) (s key : Text) :
    urls (onScheme scheme s) .incoming key = urls (onScheme scheme s) protocol key := by
  have hschemes : schemesFor .incoming scheme = schemesFor protocol scheme := by
    rw [schemesFor, schemesFor, h]
    rfl
  rw [urls_onScheme hscheme, urls_onScheme hscheme, hschemes]

theorem hasScheme_of_mem_urls {s key u x : Text} {protocol : Protocol}
    (h : protocol.schemes = [x]) (hu : u ∈ urls (onScheme scheme s) protocol key) :
    hasScheme x u = true := by
  obtain ⟨t, -, y, hy, rfl⟩ := (mem_urls_onScheme hscheme).mp hu
  rw [schemesFor, h] at hy
  rw [List.mem_singleton.mp hy]
  exact hasScheme_self x _

end Candidate

/-! ## Verdicts under the protocols -/

/-- The event under a protocol, its request under a scheme. -/
def Event.under (e : Event) (protocol : Protocol) (scheme : Text) : Event :=
  { e with
    request := e.request.under scheme
    config := { e.config with protocol := protocol } }

namespace Guard

theorem candidates_under (e : Event) (protocol : Protocol) (scheme key : Text) :
    candidates (e.under protocol scheme) key =
      Candidate.urls (Candidate.onScheme scheme e.request.rest) protocol key := by
  unfold candidates
  rw [Http.Request.url_eq_rest]
  rfl

section
variable {g : Guard} {e : Event} {response : Http.Response}

/-- The verdict looks at protocol and scheme only to find the candidates. -/
theorem judge_under_congr {p p' : Protocol} {s s' : Text}
    (h : ∀ key, candidates (e.under p s) key = candidates (e.under p' s') key) :
    g.judge (e.under p s) response = g.judge (e.under p' s') response := by
  have htoken : ∀ key token,
      g.judgeToken (e.under p s) key token = g.judgeToken (e.under p' s') key token := by
    intro key token
    have hkey := h key
    unfold candidates at hkey
    unfold judgeToken
    rw [hkey]
    rfl
  unfold judge
  simp only [htoken]
  rfl

/-- What comes of a token that is looked at: a first token, a known key, and the search for a
candidate that it signs. -/
structure Examined (g : Guard) (e : Event) (response : Http.Response)
    (found : Except Failure Bool) : Prop where
  unmarked : response.hasHeader Http.Response.shortUrlHeader = false
  strict : g.filter.isExempt e.request.transformationNames = false
  search : ∃ key token privateKey, g.token? e.request = some (key, token) ∧
    e.keys.privateKey? e.request.publicKey = some privateKey ∧
      signs g.signer key privateKey token (candidates e key) = found

theorem Examined.judge {found : Except Failure Bool} (h : Examined g e response found) :
    g.judge e response =
      found.map fun signed => if signed = true then .verified else .incorrect := by
  obtain ⟨hunmarked, hstrict, key, token, privateKey, htoken, hkey, rfl⟩ := h
  unfold Guard.judge judgeToken
  rw [if_neg (by simp [hunmarked]), if_neg (by simp [hstrict]), htoken]
  simp only [hkey, ← candidates.eq_def]
  rcases signs g.signer key privateKey token (candidates e key) with f | _ | _ <;> rfl

theorem judge_eq_verified_iff :
    g.judge e response = .ok .verified ↔ Examined g e response (.ok true) := by
  refine ⟨fun h => ?_, fun h => h.judge⟩
  unfold judge at h
  split at h
  · cases h
  next hunmarked =>
    split at h
    · cases h
    next hstrict =>
      split at h
      · cases h
      next key token htoken =>
        unfold judgeToken at h
        split at h
        · cases h
        next privateKey hkey =>
          refine ⟨by simpa using hunmarked, by simpa using hstrict, key, token, privateKey, htoken,
            hkey, ?_⟩
          simp only [bind, Except.bind] at h
          split at h
          · cases h
          next signed hsigned =>
            cases signed with
            | true => exact hsigned
            | false => cases h

end

section
variable {s : Signer} {key privateKey token : Text} {urls : List Text}

/-- A token that signs one of several URLs signs one with a property or one without it, and the
search finds it there too. -/
theorem signs_filter (p : Text → Bool) (h : signs s key privateKey token urls = .ok true) :
    signs s key privateKey token (urls.filter p) = .ok true ∨
      signs s key privateKey token (urls.filter fun u => !p u) = .ok true := by
  induction urls with
  | nil => cases h
  | cons url urls ih =>
    simp only [signs, bind, Except.bind] at h
    rcases hs : s.sign key url privateKey with f | t
    · rw [hs] at h
      cases h
    · simp only [hs] at h
      by_cases ht : t = token
      · cases hp : p url <;> simp [signs, bind, Except.bind, hp, hs, ht]
      · rw [if_neg ht] at h
        cases hp : p url <;>
          simpa [List.filter_cons, signs, bind, Except.bind, hp, hs, ht] using ih h

/-- A token that signs one of some URLs signs one of more URLs, unless one of these cannot be
signed. -/
theorem signs_of_subset {some : List Text} (hsubset : some ⊆ urls)
    (h : signs s key privateKey token some = .ok true) :
    signs s key privateKey token urls = .ok true ∨
      ∃ f, signs s key privateKey token urls = .error f := by
  obtain ⟨url, hurl, hsign⟩ := signs_true h
  rcases hall : signs s key privateKey token urls with f | _ | _
  · exact .inr ⟨f, rfl⟩
  · obtain ⟨t, ht, hne⟩ := signs_false hall url (hsubset hurl)
    rw [hsign] at ht
    exact absurd (Except.ok.inj ht).symm hne
  · exact .inl rfl

end

section
variable {g : Guard} {e : Event} {response : Http.Response} {scheme : Text}
  (hscheme : scheme ∈ Protocol.both.schemes)
include hscheme

/-- The candidates under both schemes, sorted by their scheme. -/
theorem candidates_both (key : Text) :
    (candidates (e.under .both scheme) key).filter (Candidate.hasScheme "http".toList) =
        candidates (e.under .http scheme) key ∧
      (candidates (e.under .both scheme) key).filter
          (fun u => !Candidate.hasScheme "http".toList u) =
        candidates (e.under .https scheme) key := by
  simp only [candidates_under]
  exact ⟨Candidate.urls_both_http hscheme _ key, Candidate.urls_both_https hscheme _ key⟩

theorem verified_both (h : g.judge (e.under .both scheme) response = .ok .verified) :
    g.judge (e.under .http scheme) response = .ok .verified ∨
      g.judge (e.under .https scheme) response = .ok .verified := by
  simp only [judge_eq_verified_iff] at h ⊢
  obtain ⟨hunmarked, hstrict, key, token, privateKey, htoken, hkey, hsigns⟩ := h
  obtain ⟨hhttp, hhttps⟩ := candidates_both (e := e) hscheme key
  refine (signs_filter (Candidate.hasScheme "http".toList) hsigns).imp (fun h => ?_) fun h => ?_
  · exact ⟨hunmarked, hstrict, key, token, privateKey, htoken, hkey, hhttp ▸ h⟩
  · exact ⟨hunmarked, hstrict, key, token, privateKey, htoken, hkey, hhttps ▸ h⟩

theorem verified_either (htotal : ∀ f, g.judge (e.under .both scheme) response ≠ .error f)
    (h : g.judge (e.under .http scheme) response = .ok .verified ∨
      g.judge (e.under .https scheme) response = .ok .verified) :
    g.judge (e.under .both scheme) response = .ok .verified := by
  have hone : ∀ protocol,
      (∀ key, candidates (e.under protocol scheme) key ⊆ candidates (e.under .both scheme) key) →
        g.judge (e.under protocol scheme) response = .ok .verified →
          g.judge (e.under .both scheme) response = .ok .verified := by
    intro protocol hsubset h
    rw [judge_eq_verified_iff] at h ⊢
    obtain ⟨hunmarked, hstrict, key, token, privateKey, htoken, hkey, hsigns⟩ := h
    rcases signs_of_subset (hsubset key) hsigns with hsigns | ⟨f, hf⟩
    · exact ⟨hunmarked, hstrict, key, token, privateKey, htoken, hkey, hsigns⟩
    · have hfailed : Examined g (e.under .both scheme) response (.error f) :=
        ⟨hunmarked, hstrict, key, token, privateKey, htoken, hkey, hf⟩
      exact absurd hfailed.judge (htotal f)
  rcases h with h | h
  · refine hone .http (fun key => ?_) h
    rw [← (candidates_both hscheme key).1]
    exact List.filter_subset_self _
  · refine hone .https (fun key => ?_) h
    rw [← (candidates_both hscheme key).2]
    exact List.filter_subset_self _

end

/-- Under the protocols that name their schemes, candidates and verdicts do not depend on the scheme
of the request. What both schemes admit is what one of them admits: as a candidate, and as a token
unless the signer fails before it is found. -/
theorem judge_under_protocols (s key : Text) (g : Guard) (e : Event) (response : Http.Response) :
    (∀ protocol, protocol ≠ .incoming →
      Candidate.urls ("http://".toList ++ s) protocol key =
        Candidate.urls ("https://".toList ++ s) protocol key) ∧
    (∀ u, u ∈ Candidate.urls ("http://".toList ++ s) .both key ↔
      u ∈ Candidate.urls ("http://".toList ++ s) .http key ∨
        u ∈ Candidate.urls ("http://".toList ++ s) .https key) ∧
    (∀ u ∈ Candidate.urls ("http://".toList ++ s) .http key, "http://".toList <+: u) ∧
    (∀ u ∈ Candidate.urls ("http://".toList ++ s) .https key, "https://".toList <+: u) ∧
    Candidate.urls ("http://".toList ++ s) .incoming key =
      Candidate.urls ("http://".toList ++ s) .http key ∧
    Candidate.urls ("https://".toList ++ s) .incoming key =
      Candidate.urls ("https://".toList ++ s) .https key ∧
    (∀ protocol, protocol ≠ .incoming →
      g.judge (e.under protocol "http".toList) response =
        g.judge (e.under protocol "https".toList) response) ∧
    (∀ scheme ∈ Protocol.both.schemes,
      (∀ f, g.judge (e.under .both scheme) response ≠ .error f) →
        (g.judge (e.under .both scheme) response = .ok .verified ↔
          g.judge (e.under .http scheme) response = .ok .verified ∨
            g.judge (e.under .https scheme) response = .ok .verified)) ∧
    (g.signer.Total → ∀ scheme ∈ Protocol.both.schemes, ∀ f,
      g.judge (e.under .both scheme) response ≠ .error f) := by
  have hhttp : "http".toList ∈ Protocol.both.schemes := by decide
  have hhttps : "https".toList ∈ Protocol.both.schemes := by decide
  have hprefix : ∀ {x u : Text}, Candidate.hasScheme x u = true → x ++ "://".toList <+: u :=
    fun h => List.isPrefixOf_iff_prefix.mp h
  refine ⟨fun protocol h => (Candidate.urls_scheme_free hhttps h s key).symm, fun u => ?_,
    fun u hu => hprefix (Candidate.hasScheme_of_mem_urls hhttp rfl hu),
    fun u hu => hprefix (Candidate.hasScheme_of_mem_urls hhttp rfl hu),
    Candidate.urls_incoming hhttp rfl s key, Candidate.urls_incoming hhttps rfl s key,
    fun protocol h => judge_under_congr fun key => ?_,
    fun scheme hscheme htotal => ⟨verified_both hscheme, verified_either hscheme htotal⟩,
    fun htotal scheme _ => judge_ne_error htotal _ response⟩
  · rw [show "http://".toList ++ s = Candidate.onScheme "http".toList s from rfl,
      ← Candidate.urls_both_http hhttp, ← Candidate.urls_both_https hhttp, List.mem_filter,
      List.mem_filter, ← and_or_left]
    cases Candidate.hasScheme "http".toList u <;> simp
  · rw [candidates_under, candidates_under]
    exact (Candidate.urls_scheme_free hhttps h _ key).symm

/-- A request with the token for its URL under the second scheme. -/
def signedForHttps : Http.Request := withTokenOf (numbered.under "https".toList) numbered

theorem transparent_total : transparent.Total := fun _ _ data _ => ⟨Percent.encode data, rfl⟩

/-- It is verified under both schemes because it is under the second, and not under the first;
whichever scheme it came in with. -/
theorem judge_under_protocols_https :
    transparentGuard.judge ((meeting signedForHttps).under .both "http".toList) .initial =
        .ok .verified ∧
      transparentGuard.judge ((meeting signedForHttps).under .both "https".toList) .initial =
        .ok .verified ∧
      transparentGuard.judge ((meeting signedForHttps).under .http "http".toList) .initial =
        .ok .incorrect ∧
      transparentGuard.judge ((meeting signedForHttps).under .http "https".toList) .initial =
        .ok .incorrect := by
  obtain ⟨-, -, -, -, -, -, hfree, hboth, hverdict⟩ :=
    judge_under_protocols signedForHttps.rest Signer.defaultKey transparentGuard
      (meeting signedForHttps) .initial
  have hhttps : transparentGuard.judge ((meeting signedForHttps).under .https "http".toList)
      .initial = .ok .verified := by decide +kernel
  have hhttp : transparentGuard.judge ((meeting signedForHttps).under .http "http".toList)
      .initial = .ok .incorrect := by decide +kernel
  have hverified := (hboth "http".toList (by decide)
    (hverdict transparent_total "http".toList (by decide))).mpr (.inr hhttps)
  exact ⟨hverified, (hfree .both (by decide)).symm.trans hverified, hhttp,
    (hfree .http (by decide)).symm.trans hhttp⟩

end Guard

end AliasGate
