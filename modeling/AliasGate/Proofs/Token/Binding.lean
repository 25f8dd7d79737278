import AliasGate.Proofs.Token.Finding
import AliasGate.Proofs.Token.Forms
import AliasGate.Proofs.Token.Leftover

/-!
# What a token binds

A token is the signature of one URL. The guard accepts it for each request that has the URL among
its candidates. If the request cannot be read in two ways, then the signed URL is that of a request
with the same host, the same decoded path and the same arguments, up to the numbers in the brackets
of their names.

* `Http.Request.reads_alike`: a request whose URL is a candidate of another is read like it.
* `Guard.judge_binds`: the signed request and the verified one are read alike.
* `Guard.judge_confused`: requests that are read in two ways are verified under the token of others.
-/

namespace AliasGate

open Query (Clear filled)

/-! ## Candidates of an unambiguous request -/

namespace Http.Request

section
variable {r : Request} {k : Text} (hplain : ∀ c ∈ k, Percent.isUnreserved c = true)

/-- An argument that is found is one of the arguments. -/
theorem arguments_ne_nil {value : Text} (h : r.argument? k = some value) :
    Query.arguments r.query ≠ [] := by
  intro hnil
  rw [Query.arguments_eq, List.map_eq_nil_iff] at hnil
  rw [argument?, queryPairs, Query.form_eq, hnil] at h
  cases h

/-- An argument that is not found is none of the fields. -/
theorem read_ne_of_argument?_eq_none (h : r.argument? k = none) :
    ∀ f ∈ filled (Text.fields '&' r.query), (Query.read f).1 ≠ k := by
  intro f hf hk
  rw [argument?, queryPairs, Query.form_eq, Query.first?, List.lookup_eq_none_iff] at h
  simpa [hk] using h _ (List.mem_map_of_mem hf)

include hplain

/-- A request whose URL is a candidate of an unambiguous one is read like it. -/
theorem reads_alike {r' : Request} {protocol : Protocol} {value : Text} (hr : r.WellFormed)
    (hclear : r.Unambiguous k) (hvalue : r.argument? k = some value) (hr' : r'.WellFormed)
    (hnone : r'.argument? k = none) (h : r'.url ∈ Candidate.urls r.url protocol k) :
    r'.host = r.host ∧ Percent.decode r'.path = Percent.decode r.path ∧
      Query.reading r'.queryPairs = Query.reading (Query.others k r.queryPairs) := by
  obtain ⟨form, hform, u, hu, hurl⟩ := Candidate.mem_urls.mp h
  have hrestates := restates_of_mem_forms hplain hr hclear (arguments_ne_nil hvalue) hform
  obtain ⟨s, hs, p, fs, hp, rfl, hfs⟩ := restates_of_rebuilt hr hrestates hu
  have hunder := hr.under hs
  obtain ⟨hunmarked, hending⟩ := hp.base hunder
  obtain ⟨query, hstrip, hleft⟩ := Query.exists_strip hplain hfs hclear.last hunmarked hending
  rw [onHost_append, hstrip, ← onHost_append] at hurl
  obtain ⟨hhost, hpath, rfl⟩ := parts_of_url hunder hr' hp.rooted hp.question hurl
  have hnames := read_ne_of_argument?_eq_none hnone
  have hleft := hleft.resolve_left fun ⟨f, hf, hread⟩ => hnames f hf hread
  refine ⟨hhost, hpath ▸ hp.decoded, ?_⟩
  have hstands := Query.kept_stands hfs fun f hf => hnames f (hleft ▸ hf)
  have hclears : ∀ f ∈ filled (Text.fields '&' r.query), Clear k (Query.argument f) := fun f hf =>
    hclear.clear _ (by rw [Query.arguments_eq]; exact List.mem_map_of_mem hf)
  rw [queryPairs, queryPairs, Query.form_eq, Query.form_eq, Query.others_read hplain hclears,
    ← Query.arguments_eq, hleft]
  exact Query.reading_stands hstands

end

end Http.Request

/-! ## The token -/

namespace Guard

/-- **What a token binds.** A verified token that also signs the URL of a request without one binds
the verified request, if it cannot be read in two ways: host, decoded path and the arguments of
other names are those of the request whose URL was signed, up to the numbers in brackets. -/
theorem judge_binds {g : Guard} {e : Event} {response : Http.Response}
    {k token privateKey : Text} {signed : Http.Request}
    (hverified : g.judge e response = .ok .verified)
    (hfirst : FirstToken g.signer.keys e.request k token)
    (hkey : e.keys.privateKey? e.request.publicKey = some privateKey)
    (hplain : ∀ c ∈ k, Percent.isUnreserved c = true)
    (hinj : ∀ u v t, g.signer.sign k u privateKey = .ok t → g.signer.sign k v privateKey = .ok t →
      u = v)
    (hr : e.request.WellFormed) (hclear : e.request.Unambiguous k) (hsigned : signed.WellFormed)
    (hnone : signed.argument? k = none)
    (hsign : g.signer.sign k signed.url privateKey = .ok token) :
    signed.host = e.request.host ∧
      Percent.decode signed.path = Percent.decode e.request.path ∧
        Query.reading signed.queryPairs =
          Query.reading (Query.others k e.request.queryPairs) := by
  have hmark : response.hasHeader Http.Response.shortUrlHeader = false := by
    rw [Bool.eq_false_iff]
    intro h
    rw [judge_marked h] at hverified
    cases hverified
  have hfinding := judge_finding (g := g) (e := e) hmark
  rw [hverified] at hfinding
  cases hfinding with
  | verified _ hfirst' hkey' hurl hsign' =>
    obtain ⟨rfl, rfl⟩ := firstToken_unique hfirst hfirst'
    rw [hkey] at hkey'
    cases hkey'
    obtain ⟨before, after, -, -, hvalue⟩ := hfirst
    have hcandidate : signed.url ∈ Candidate.urls e.request.url e.protocol k := by
      rw [hinj _ _ _ hsign hsign']
      exact hurl
    exact Http.Request.reads_alike hplain hr hclear hvalue hsigned hnone hcandidate

/-- A signer whose signature is the data, encoded. -/
def transparent : Signer :=
  ⟨.custom, [Signer.defaultKey], fun _ data _ => .ok (Percent.encode data)⟩

theorem transparent_injective (argument u v privateKey t : Text)
    (hu : transparent.sign argument u privateKey = .ok t)
    (hv : transparent.sign argument v privateKey = .ok t) : u = v := by
  have ht : Percent.encode u = Percent.encode v := by
    rw [← Except.ok.inj hu] at hv
    exact (Except.ok.inj hv).symm
  rw [← Percent.decode_encode u, ht, Percent.decode_encode]

/-- A guard with this signer. -/
def transparentGuard : Guard := ⟨transparent, ⟨[], []⟩, guardedEvents, defaultPriority⟩

/-- A request for a user. -/
def browse (host path query : String) : Http.Request :=
  ⟨"GET".toList, "http".toList, host.toList, path.toList, query.toList, [],
    { user := some "christer".toList }, [], 970⟩

/-- A request as the guard meets it. -/
def meeting (r : Http.Request) : Event where
  name := "user.get.pre".toList
  request := r
  config := { Settings.standard with protocol := .both }
  keys := [("christer".toList, "key".toList)]

/-- A request with the token of another one before its own arguments. -/
def withTokenOf (signed r : Http.Request) : Http.Request :=
  { r with query := Signer.defaultKey ++ '=' :: Percent.encode (Percent.encode signed.url) ++
      '&' :: r.query }

/-- A request without a token. -/
def numbered : Http.Request := browse "imbo" "/users/christer" "t[0]=border&page=2"

/-- The same request in other notations, with the token of the first. -/
def unnumbered : Http.Request :=
  withTokenOf numbered (browse "imbo" "/users/chris%74er" "t[]=border&page=%32")

/-- The token for a decoded path and numbered brackets binds a request that has neither. -/
theorem judge_binds_unnumbered :
    numbered.host = unnumbered.host ∧
      Percent.decode numbered.path = Percent.decode unnumbered.path ∧
        Query.reading numbered.queryPairs =
          Query.reading (Query.others Signer.defaultKey unnumbered.queryPairs) := by
  have hverified : transparentGuard.judge (meeting unnumbered) .initial = .ok .verified := by
    decide +kernel
  have hfirst : FirstToken transparentGuard.signer.keys unnumbered Signer.defaultKey
      (Percent.encode numbered.url) :=
    ⟨[], [], rfl, fun _ h => absurd h List.not_mem_nil, by decide +kernel⟩
  have hkey : (meeting unnumbered).keys.privateKey? unnumbered.publicKey = some "key".toList := by
    decide +kernel
  have hr : unnumbered.WellFormed :=
    ⟨.inl rfl, Text.forall_mem_of_all (by decide +kernel), .inr (by decide +kernel),
      by decide +kernel⟩
  have hclear : unnumbered.Unambiguous Signer.defaultKey :=
    ⟨by decide +kernel, by decide +kernel, by decide +kernel, by decide +kernel,
      by decide +kernel, by decide +kernel⟩
  have hsigned : numbered.WellFormed :=
    ⟨.inl rfl, Text.forall_mem_of_all (by decide +kernel), .inr (by decide +kernel),
      by decide +kernel⟩
  exact judge_binds hverified hfirst hkey (Text.forall_mem_of_all (by decide))
    (fun u v t => transparent_injective _ u v _ t) hr hclear hsigned (by decide +kernel) rfl

/-- Requests that are read in two ways, each beside one that is not read like it. -/
def confusions : List (Http.Request × Http.Request) := [
  -- an encoded separator in a value, in a name, at the end of a name
  (browse "imbo" "/users" "a=b%26c%3Dd", browse "imbo" "/users" "a=b&c=d"),
  (browse "imbo" "/users" "a%26b=c", browse "imbo" "/users" "a&b=c"),
  (browse "imbo" "/users" "a%3Db=c", browse "imbo" "/users" "a=b=c"),
  -- a plus sign, which stands for a space only in form data
  (browse "imbo" "/users" "a=b+c", browse "imbo" "/users" "a=b%2Bc"),
  (browse "imbo" "/users" "a+b=c", browse "imbo" "/users" "a%2Bb=c"),
  -- an escape that is left after decoding
  (browse "imbo" "/users" "a=%2541", browse "imbo" "/users" "a=%41"),
  (browse "imbo" "/users" "%2541=b", browse "imbo" "/users" "%41=b"),
  (browse "imbo" "/%2541" "", browse "imbo" "/%41" ""),
  -- the mark of the token in a value, in the path and in an argument of its name
  (browse "imbo" "/users" "a=b?accessToken=c", browse "imbo" "/users" "a=b"),
  (browse "imbo" "/users&accessToken=b" "", browse "imbo" "/users" ""),
  (browse "imbo" "/users" "accessToken=x%26b%3Dc", browse "imbo" "/users" "b=c"),
  -- a separator at the end
  (browse "imbo" "/users" "a=b?", browse "imbo" "/users" "a=b"),
  (browse "imbo" "/users&" "", browse "imbo" "/users" ""),
  -- a question mark in the decoded path
  (browse "imbo" "/a%3Fb" "c=d", browse "imbo" "/a" "b?c=d"),
  -- a host that is no host
  (browse "im%62o" "/users" "", browse "imbo" "/users" ""),
  (browse "imbo&accessToken=x" "/users" "", browse "imbo" "" ""),
  (browse "imbo?a=b" "/users" "", browse "imbo" "" "a=b/users"),
  (browse "imbo" "/users" "", browse "imb" "o/users" "")]

/-- Each of them is verified under the token of the other. -/
theorem judge_confused :
    (∀ u v privateKey t, transparent.sign Signer.defaultKey u privateKey = .ok t →
      transparent.sign Signer.defaultKey v privateKey = .ok t → u = v) ∧
    ∀ c ∈ confusions,
      let sent := withTokenOf c.2 c.1
      let token := Percent.encode c.2.url
      transparentGuard.judge (meeting sent) .initial = .ok .verified ∧
        sent.argument? Signer.defaultKey = some token ∧
        transparent.sign Signer.defaultKey c.2.url "key".toList = .ok token ∧
        c.2.argument? Signer.defaultKey = none ∧
        ¬(c.2.host = sent.host ∧ Percent.decode c.2.path = Percent.decode sent.path ∧
          Query.reading c.2.queryPairs =
            Query.reading (Query.others Signer.defaultKey sent.queryPairs)) := by
  refine ⟨fun u v privateKey t => transparent_injective _ u v privateKey t, ?_⟩
  decide +kernel

end Guard

end AliasGate
