import AliasGate.Proofs.Query.Numbering
import AliasGate.Proofs.Token.SignThenVerify
import AliasGate.Proofs.Token.Written

/-!
# Tokens in either notation

A client may write the arguments of an array with or without numbers. The candidates that are built
from arguments are the same for both, so a token that is good in one notation is good in the other.

* `Candidate.fromArguments`, `Candidate.urls_query`: the candidates in question among all of them.
* `Candidate.mem_fromArguments_index`: numbering changes none of them.
* `Guard.Demands`, `Guard.judge_fromArguments`: a request whose token the guard looks at, and what it
  says if the token signs such a candidate.
* `Guard.notations_agree`: the laws of both notations, down to the verdict.
* `Guard.judge_repeated_token`: of several tokens only the first is looked at.
-/

namespace AliasGate

open Query (Argument Numbered arguments encoded index numberedAt pair reduce)

/-! ## Candidates from arguments -/

namespace Candidate

/-- The candidates that are built from arguments. -/
def fromArguments (base : Text) (args : List Argument) (protocol : Protocol) (key : Text) :
    List Text :=
  (underSchemes protocol.schemes (restored base args)).map (strip key)

theorem underSchemes_append (schemes us vs : List Text) :
    underSchemes schemes (us ++ vs) = underSchemes schemes us ++ underSchemes schemes vs := by
  cases schemes with
  | nil => rfl
  | cons => exact List.flatMap_append

/-- The candidates of a URL with a query: those that come from the URL as it is or decoded, and those
built from its arguments. -/
theorem urls_query {base query : Text} (hbase : '?' ∉ base) (hquery : query ≠ [])
    (protocol : Protocol) (key : Text) : urls (base ++ '?' :: query) protocol key =
      distinct ((underSchemes protocol.schemes
        [base ++ '?' :: query, Percent.decode (base ++ '?' :: query)]).map (strip key) ++
          fromArguments base (arguments query) protocol key) := by
  rw [urls, forms_query hbase hquery, underSchemes_append, List.map_append]
  rfl

theorem mem_restored {base form : Text} {args : List Argument} :
    form ∈ restored base args ↔ form ∈ rebuilt base args ∨ form ∈ rebuilt base (index args) ∨
      form ∈ rebuilt base (reduce args) := by
  simp [restored]

/-- Numbering changes none of the forms, since it can be undone. -/
theorem mem_restored_index {args : List Argument} (h : ∀ a ∈ args, ¬Numbered a.1)
    {base form : Text} : form ∈ restored base (index args) ↔ form ∈ restored base args := by
  rw [mem_restored, mem_restored, Query.index_index, Query.reduce_index h, Query.reduce_eq_self h]
  constructor
  · rintro (hform | hform | hform)
    · exact .inr (.inl hform)
    · exact .inr (.inl hform)
    · exact .inl hform
  · rintro (hform | hform | hform)
    · exact .inr (.inr hform)
    · exact .inl hform
    · exact .inr (.inr hform)

theorem mem_fromArguments_index {args : List Argument} (h : ∀ a ∈ args, ¬Numbered a.1)
    {base key u : Text} {protocol : Protocol} :
    u ∈ fromArguments base (index args) protocol key ↔ u ∈ fromArguments base args protocol key := by
  unfold fromArguments
  rw [mem_stripped, mem_stripped]
  simp only [mem_restored_index h]

end Candidate

/-! ## Requests whose token is looked at -/

namespace Event

/-- The event with another query in its request. -/
def withQuery (e : Event) (query : Text) : Event :=
  { e with request := { e.request with query := query } }

/-- The event with encoded arguments in its request. -/
def withArguments (e : Event) (args : List Argument) : Event :=
  e.withQuery (Text.joined ['&'] (args.map encoded))

theorem url_withQuery (e : Event) {query : Text} (h : query ≠ []) :
    (e.withQuery query).request.url = e.request.base ++ '?' :: query := by
  cases query with
  | nil => exact absurd rfl h
  | cons c query => rfl

/-- Encoded arguments are found by their names. -/
theorem argument?_withArguments (e : Event) {args : List Argument}
    (h : ∀ a ∈ args, a ≠ ([], none)) (name : Text) :
    (e.withArguments args).request.argument? name = (args.map pair).lookup name := by
  rw [← Query.form_encoded h]
  rfl

end Event

namespace Guard

/-- The guard demands a token and can check it: the response is not marked, the request is not exempt,
and its public key is known. -/
structure Demands (g : Guard) (e : Event) (response : Http.Response) (privateKey : Text) : Prop where
  unmarked : response.hasHeader Http.Response.shortUrlHeader = false
  strict : g.filter.isExempt e.request.transformationNames = false
  known : e.keys.privateKey? e.request.publicKey = some privateKey

section
variable {g : Guard} {e : Event} {response : Http.Response} {key privateKey u : Text}
  (hsign : ∀ data privateKey, g.signer.sign key data privateKey = .ok (Hmac.signature privateKey data))
include hsign

/-- A keyed digest of a candidate is verified. -/
theorem judge_digest (hdemands : Demands g e response privateKey)
    (hfirst : FirstToken g.signer.keys e.request key (Hmac.signature privateKey u))
    (hu : u ∈ candidates e key) : g.judge e response = .ok .verified :=
  judge_verified hdemands.unmarked hdemands.strict hfirst hdemands.known hu (hsign u privateKey)
    fun v => ⟨_, hsign v privateKey⟩

/-- A token with a reserved character is no keyed digest. -/
theorem judge_no_digest (hmark : response.hasHeader Http.Response.shortUrlHeader = false) {token : Text}
    (hfirst : FirstToken g.signer.keys e.request key token) {c : Char} (hc : c ∈ token)
    (hreserved : Percent.isUnreserved c = false) : g.judge e response ≠ .ok .verified := by
  intro hjudge
  have hfinding := judge_finding (g := g) (e := e) hmark
  rw [hjudge] at hfinding
  cases hfinding with
  | verified _ hfirst' _ _ hsigned =>
    obtain ⟨rfl, rfl⟩ := firstToken_unique hfirst hfirst'
    rw [hsign] at hsigned
    cases hsigned
    exact Percent.isUnreserved_ne (Hmac.mem_signature hc) hreserved rfl

/-- A keyed digest of what is built from the arguments of the query is verified. -/
theorem judge_fromArguments {query : Text} (hbase : '?' ∉ e.request.base)
    (hdemands : Demands g (e.withQuery query) response privateKey)
    (hfirst : FirstToken g.signer.keys (e.withQuery query).request key (Hmac.signature privateKey u))
    (hu : u ∈ Candidate.fromArguments e.request.base (arguments query) e.protocol key) :
    g.judge (e.withQuery query) response = .ok .verified := by
  refine judge_digest hsign hdemands hfirst ?_
  have hquery : query ≠ [] := by
    rintro rfl
    obtain ⟨-, -, -, -, htoken⟩ := hfirst
    cases htoken
  unfold candidates
  rw [e.url_withQuery hquery]
  show u ∈ Candidate.urls _ e.protocol key
  rw [Candidate.urls_query hbase hquery, Candidate.mem_distinct]
  exact List.mem_append_right _ hu

end

/-! ## Both notations -/

section
variable {e : Event} {query query' : Text} (hplus : '+' ∉ query) (hplus' : '+' ∉ query')
  (hindexed : arguments query' = index (arguments query))
include hplus hplus' hindexed

/-- A name without brackets has the same value in both queries. -/
theorem argument?_index {name : Text} (hname : '[' ∉ name) :
    (e.withQuery query').request.argument? name = (e.withQuery query).request.argument? name := by
  show (Query.form query').lookup name = (Query.form query).lookup name
  rw [Query.form_eq_arguments hplus, Query.form_eq_arguments hplus', hindexed,
    Query.lookup_variants (Query.index_variants _) hname]

theorem publicKey_index :
    (e.withQuery query').request.publicKey = (e.withQuery query).request.publicKey := by
  have hbracket : '[' ∉ Http.Request.publicKeyArgument := by decide
  rw [Http.Request.publicKey, argument?_index hplus hplus' hindexed hbracket]
  rfl

theorem firstToken_index {keys : List Text}
    (hplain : ∀ k ∈ keys, ∀ c ∈ k, Percent.isUnreserved c = true) {key token : Text}
    (h : FirstToken keys (e.withQuery query).request key token) :
    FirstToken keys (e.withQuery query').request key token := by
  have hsame : ∀ k ∈ keys, (e.withQuery query').request.argument? k =
      (e.withQuery query).request.argument? k := fun k hk =>
    argument?_index hplus hplus' hindexed (Percent.not_mem_of_unreserved (hplain k hk) rfl)
  have hkey := h.mem
  obtain ⟨before, after, rfl, hbefore, htoken⟩ := h
  refine ⟨before, after, rfl, fun k hk => ?_, (hsame key hkey).trans htoken⟩
  exact (hsame k (List.mem_append_left _ hk)).trans (hbefore k hk)

end

/-- **Array notations.** `index` numbers each name in empty brackets from zero on (`numberedAt`), is
idempotent, and is undone by `reduce`. Two queries, of which one has the arguments of the other one
indexed, give the same candidates, and the guard verifies the token of such a candidate in both. -/
theorem notations_agree {given : List Argument} (hgiven : ∀ a ∈ given, ¬Numbered a.1) :
    index given = given.mapIdx (numberedAt given) ∧ index (index given) = index given ∧
    reduce (index given) = given ∧
    ∀ query query' : Text, '+' ∉ query → '+' ∉ query' → arguments query = given →
      arguments query' = index given →
      (∀ (base : Text) (protocol : Protocol) (key u : Text),
        u ∈ Candidate.fromArguments base (arguments query) protocol key ↔
          u ∈ Candidate.fromArguments base (arguments query') protocol key) ∧
      ∀ (g : Guard) (e : Event) (response : Http.Response) (key privateKey u : Text),
        (∀ k ∈ g.signer.keys, ∀ c ∈ k, Percent.isUnreserved c = true) →
        (∀ data privateKey,
          g.signer.sign key data privateKey = .ok (Hmac.signature privateKey data)) →
        '?' ∉ e.request.base →
        Demands g (e.withQuery query) response privateKey →
        g.filter.isExempt (e.withQuery query').request.transformationNames = false →
        u ∈ Candidate.fromArguments e.request.base (arguments query) e.protocol key →
        FirstToken g.signer.keys (e.withQuery query).request key (Hmac.signature privateKey u) →
        g.judge (e.withQuery query) response = .ok .verified ∧
          g.judge (e.withQuery query') response = .ok .verified := by
  refine ⟨Query.index_eq_mapIdx given, Query.index_index given, Query.reduce_index hgiven, ?_⟩
  rintro query query' hplus hplus' rfl hindexed
  have hsame : ∀ (base : Text) (protocol : Protocol) (key u : Text),
      u ∈ Candidate.fromArguments base (arguments query) protocol key ↔
        u ∈ Candidate.fromArguments base (arguments query') protocol key := by
    intro base protocol key u
    rw [hindexed]
    exact (Candidate.mem_fromArguments_index hgiven).symm
  refine ⟨hsame, fun g e response key privateKey u hplain hsign hbase hdemands hstrict hu hfirst =>
    ⟨judge_fromArguments hsign hbase hdemands hfirst hu, ?_⟩⟩
  have hknown := hdemands.known
  rw [← publicKey_index hplus hplus' hindexed] at hknown
  exact judge_fromArguments hsign hbase ⟨hdemands.unmarked, hstrict, hknown⟩
    (firstToken_index hplus hplus' hindexed hplain hfirst) ((hsame _ _ _ u).mp hu)

/-- A request with one of the two schemes, whose tokens sign URLs of this scheme. -/
def plainEvent : Event := { unsignedEvent with config := .standard }

theorem demands_plainEvent (signer : Signer) {args : List Argument}
    (h : ∀ a ∈ args, a ≠ ([], none))
    (hpublic : (args.map pair).lookup Http.Request.publicKeyArgument = none) :
    Demands { plainGuard with signer := signer } (plainEvent.withArguments args) .initial
      "key".toList := by
  have hnone := plainEvent.argument?_withArguments h Http.Request.publicKeyArgument
  rw [hpublic] at hnone
  refine ⟨rfl, rfl, ?_⟩
  rw [Http.Request.publicKey, hnone]
  rfl

/-- The URL that a client signs. -/
def numberedUrl : Text := "https://imbo/users/christer?t[0]=border".toList

/-- The arguments of its request, with a token. -/
def bracketed (token : Text) : List Argument :=
  [("t[]".toList, some "border".toList), ("accessToken".toList, some token)]

theorem index_bracketed (token : Text) : index (bracketed token) =
    [("t[0]".toList, some "border".toList), ("accessToken".toList, some token)] := by
  have hname : Query.unindexed? "t[]".toList = some ['t'] := by decide +kernel
  have hkey : Query.unindexed? "accessToken".toList = none := by decide +kernel
  simp only [index, bracketed, Query.indexFrom, hname, hkey]
  rfl

theorem accessToken_plain : ∀ c ∈ "accessToken".toList, Percent.isUnreserved c = true :=
  Text.forall_mem_of_all (by decide)

theorem plainGuard_keys : ∀ k ∈ plainGuard.signer.keys, ∀ c ∈ k, Percent.isUnreserved c = true := by
  intro k hk
  rw [List.mem_singleton.mp hk]
  exact accessToken_plain

/-- With any token, that URL is built from the arguments. -/
theorem numberedUrl_mem {token : Text} (htoken : '&' ∉ token) :
    numberedUrl ∈ Candidate.fromArguments plainEvent.request.base (bracketed token) .incoming
      "accessToken".toList := by
  have hunmarked : Candidate.Unmarked ("accessToken".toList ++ ['=']) numberedUrl :=
    Candidate.unmarked_iff.mpr (by decide +kernel)
  have hlast : numberedUrl.getLast? = some 'r' := by decide +kernel
  have hend := Candidate.isSeparator_last hlast rfl
  have hbase : Percent.decode plainEvent.request.base = plainEvent.request.base :=
    Percent.decode_eq_self (by decide +kernel)
  have hsplit : numberedUrl = plainEvent.request.base ++ '?' :: "t[0]=border".toList := by
    decide +kernel
  have hform : numberedUrl ++ '&' :: ("accessToken".toList ++ '=' :: token) =
      Query.join id (Percent.decode plainEvent.request.base) (index (bracketed token)) := by
    rw [hbase, index_bracketed, hsplit]
    simp [Query.join, Query.writeArgument, Text.joined]
  refine Candidate.mem_stripped.mpr ⟨_, ?_, _, .inl ⟨rfl, rfl⟩, (Candidate.strip_last
    (Candidate.marker_of_unreserved accessToken_plain) hunmarked hend htoken).symm⟩
  rw [hform]
  exact Candidate.mem_restored.mpr (.inr (.inl List.mem_cons_self))

/-- The token for numbered arguments is verified whether they are numbered in the request or not. -/
theorem notations_agree_border : ∃ given : List Argument, (∀ a ∈ given, ¬Numbered a.1) ∧
    given.map (·.1) = ["t[]".toList, "accessToken".toList] ∧
    plainGuard.judge (plainEvent.withArguments given) .initial = .ok .verified ∧
    plainGuard.judge (plainEvent.withArguments (index given)) .initial = .ok .verified := by
  obtain ⟨token, htoken⟩ : ∃ token, token = Hmac.signature "key".toList numberedUrl := ⟨_, rfl⟩
  have hamp : '&' ∉ token := by
    rw [htoken]
    exact fun h => Percent.isUnreserved_ne (Hmac.mem_signature h) rfl rfl
  have hgiven : ∀ a ∈ bracketed token, ¬Numbered a.1 := by
    have hnames : ∀ name ∈ ["t[]".toList, "accessToken".toList], ¬Numbered name := by
      decide +kernel
    exact fun a ha => hnames a.1 (List.mem_map_of_mem ha)
  have hne : ∀ a ∈ bracketed token, a ≠ ([], none) := by
    simp [bracketed]
  have hne' : ∀ a ∈ index (bracketed token), a ≠ ([], none) := by
    simp [index_bracketed]
  obtain ⟨-, -, -, hboth⟩ := notations_agree hgiven
  obtain ⟨-, hjudge⟩ := hboth _ _ Query.plus_not_mem_joined Query.plus_not_mem_joined
    (Query.arguments_encoded hne) (Query.arguments_encoded hne')
  have hbase : '?' ∉ plainEvent.request.base := by decide +kernel
  have hpublic : ((bracketed token).map pair).lookup Http.Request.publicKeyArgument = none := rfl
  have hvalue : ((bracketed token).map pair).lookup "accessToken".toList = some token := rfl
  have hfirst : FirstToken plainGuard.signer.keys (plainEvent.withArguments (bracketed token)).request
      "accessToken".toList (Hmac.signature "key".toList numberedUrl) := by
    rw [← htoken]
    exact ⟨[], [], rfl, nofun, (plainEvent.argument?_withArguments hne _).trans hvalue⟩
  have hu : numberedUrl ∈ Candidate.fromArguments plainEvent.request.base
      (Query.arguments (Text.joined ['&'] ((bracketed token).map encoded))) .incoming
        "accessToken".toList := by
    rw [Query.arguments_encoded hne]
    exact numberedUrl_mem hamp
  exact ⟨bracketed token, hgiven, rfl, hjudge plainGuard plainEvent .initial "accessToken".toList
    "key".toList numberedUrl plainGuard_keys (fun _ _ => rfl) hbase
    (demands_plainEvent plainGuard.signer hne hpublic) rfl hu hfirst⟩

/-- Two arguments with the name of a token. -/
def repeated (token : Text) : List Argument :=
  [("accessToken".toList, some ['/']), ("accessToken".toList, some token)]

/-- Without both of them, the URL has no query. -/
theorem base_mem_repeated (token : Text) :
    plainEvent.request.base ∈ Candidate.fromArguments plainEvent.request.base (repeated token)
      .incoming "accessToken".toList := by
  have hunmarked : Candidate.Unmarked ("accessToken".toList ++ ['=']) plainEvent.request.base :=
    Candidate.unmarked_iff.mpr (by decide +kernel)
  have hwhole : ∀ f ∈ (repeated token).map encoded,
      Candidate.Whole ("accessToken".toList ++ ['=']) f := by
    intro f hf
    obtain ⟨a, -, rfl⟩ := List.mem_map.mp hf
    exact .of_plain fun _ => Query.isSeparator_of_mem_encoded
  have hbegins : ∀ value, "accessToken".toList ++ ['='] <+:
      encoded ("accessToken".toList, some value) := by
    intro value
    rw [encoded, Query.writeArgument, Percent.encode_eq_self accessToken_plain]
    exact ⟨Percent.encode value, by simp⟩
  have hkept : Candidate.kept ("accessToken".toList ++ ['=']) ((repeated token).map encoded) = [] := by
    rw [repeated, List.map_cons, List.map_singleton, Candidate.kept_cons, if_pos (hbegins _),
      Candidate.kept_cons, if_pos (hbegins _)]
    rfl
  have hstrip := Candidate.strip_fields (Candidate.marker_of_unreserved accessToken_plain) hunmarked
    hwhole
  have hself : Candidate.dropSeparators plainEvent.request.base = plainEvent.request.base := by
    decide +kernel
  have hdrop : Candidate.dropSeparators (plainEvent.request.base ++ '?' :: Text.joined ['&'] []) =
      plainEvent.request.base :=
    (Candidate.dropSeparators_concat rfl _).trans hself
  rw [hkept, hdrop] at hstrip
  refine Candidate.mem_stripped.mpr ⟨_, ?_, _, .inl ⟨rfl, rfl⟩, hstrip.symm⟩
  exact Candidate.mem_restored.mpr (.inl (List.mem_cons_of_mem _ List.mem_cons_self))

/-- A token that is good is not looked at behind another argument of its name. -/
theorem judge_repeated_token : ∃ token : Text,
    (∀ a ∈ repeated token, ¬Numbered a.1) ∧
    '+' ∉ Text.joined ['&'] ((repeated token).map encoded) ∧
    arguments (Text.joined ['&'] ((repeated token).map encoded)) = repeated token ∧
    index (repeated token) = repeated token ∧
    (∀ k ∈ plainGuard.signer.keys, ∀ c ∈ k, Percent.isUnreserved c = true) ∧
    Demands plainGuard (plainEvent.withArguments (repeated token)) .initial "key".toList ∧
    ("accessToken".toList, some token) ∈ repeated token ∧
    "accessToken".toList ∈ plainGuard.signer.keys ∧
    plainEvent.request.base ∈ Candidate.fromArguments plainEvent.request.base (repeated token)
      plainEvent.protocol "accessToken".toList ∧
    token = Hmac.signature "key".toList plainEvent.request.base ∧
    plainGuard.judge (plainEvent.withArguments (repeated token)) .initial ≠ .ok .verified := by
  obtain ⟨token, htoken⟩ : ∃ token, token = Hmac.signature "key".toList plainEvent.request.base :=
    ⟨_, rfl⟩
  have hgiven : ∀ a ∈ repeated token, ¬Numbered a.1 := by
    have hnames : ∀ name ∈ ["accessToken".toList, "accessToken".toList], ¬Numbered name := by
      decide +kernel
    exact fun a ha => hnames a.1 (List.mem_map_of_mem ha)
  have hne : ∀ a ∈ repeated token, a ≠ ([], none) := by
    simp [repeated]
  have hindex : index (repeated token) = repeated token := by
    have hkey : Query.unindexed? "accessToken".toList = none := by decide +kernel
    refine Query.indexFrom_eq_self (fun a ha => ?_) []
    simp only [repeated, List.mem_cons, List.not_mem_nil, or_false] at ha
    rcases ha with rfl | rfl <;> exact hkey
  have hpublic : ((repeated token).map pair).lookup Http.Request.publicKeyArgument = none := rfl
  have hvalue : ((repeated token).map pair).lookup "accessToken".toList = some ['/'] := rfl
  have hdemands := demands_plainEvent plainGuard.signer hne hpublic
  have hfirst : FirstToken plainGuard.signer.keys (plainEvent.withArguments (repeated token)).request
      "accessToken".toList ['/'] :=
    ⟨[], [], rfl, nofun, (plainEvent.argument?_withArguments hne _).trans hvalue⟩
  exact ⟨token, hgiven, Query.plus_not_mem_joined, Query.arguments_encoded hne, hindex,
    plainGuard_keys, hdemands, List.mem_cons_of_mem _ List.mem_cons_self, List.mem_cons_self,
    base_mem_repeated token, htoken,
    judge_no_digest (fun _ _ => rfl) hdemands.unmarked hfirst List.mem_cons_self rfl⟩

end Guard

end AliasGate
