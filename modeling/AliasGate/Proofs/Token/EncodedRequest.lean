import AliasGate.Proofs.Token.Notations

/-!
# Encoded requests with readable signatures

A client that encodes the arguments of its request may sign the URL as it reads it: plainly or
encoded, with numbers between empty brackets or without.

* `Event.withToken`: a request with encoded arguments and a token behind them.
* `Candidate.mem_restored_concat`: what is built from these arguments is what was signed, with the
  token behind it.
* `Guard.judge_encoded_request`: the token is verified.
* `Guard.judge_numbered_key`: unless an argument that was numbered is taken for the token.
-/

namespace AliasGate

open Query (Argument Numbered Variant arguments encoded index pair reduce writeArgument)

/-! ## A token behind encoded arguments -/

namespace Event

/-- The event with encoded arguments in its request, and a token behind them. -/
def withToken (e : Event) (args : List Argument) (key token : Text) : Event :=
  e.withQuery (Text.joined ['&'] (args.map encoded) ++ '&' :: (key ++ '=' :: token))

/-- The token is one encoded argument more. -/
theorem withToken_eq (e : Event) {args : List Argument} (hargs : args ≠ []) {key token : Text}
    (hkey : ∀ c ∈ key, Percent.isUnreserved c = true)
    (htoken : ∀ c ∈ token, Percent.isUnreserved c = true) :
    e.withToken args key token = e.withArguments (args ++ [(key, some token)]) := by
  have hfields : args.map encoded ≠ [] := fun h => hargs (List.map_eq_nil_iff.mp h)
  unfold withToken withArguments
  rw [List.map_append, List.map_singleton, Query.encoded_of_unreserved hkey htoken,
    Text.joined_concat _ hfields, List.singleton_append]

/-- Its URL is the encoded one with a token behind it. -/
theorem url_withToken (e : Event) {args : List Argument} (hargs : args ≠ []) (key token : Text) :
    (e.withToken args key token).request.url =
      Query.join Percent.encode e.request.base args ++ '&' :: (key ++ '=' :: token) := by
  rw [withToken, e.url_withQuery (by simp)]
  cases args with
  | nil => exact absurd rfl hargs
  | cons a args => simp [Query.join, encoded]

end Event

namespace Candidate

variable {base : Text} {args : List Argument}

theorem join_concat (write : Text → Text) (base : Text) (hargs : args ≠ []) (a : Argument) :
    Query.join write base (args ++ [a]) =
      Query.join write base args ++ '&' :: writeArgument write a := by
  have hjoin : ∀ {l : List Argument}, l ≠ [] → Query.join write base l =
      base ++ '?' :: Text.joined ['&'] (l.map (writeArgument write)) := by
    intro l hl
    cases l with
    | nil => exact absurd rfl hl
    | cons => rfl
  have hfields : args.map (writeArgument write) ≠ [] := fun h => hargs (List.map_eq_nil_iff.mp h)
  rw [hjoin hargs, hjoin (by simp), List.map_append, List.map_singleton, Text.joined_concat _ hfields]
  simp

/-- What a client may sign for arguments: the plain or the encoded URL, with the names as they are or
numbered. -/
def readings (base : Text) (args : List Argument) : List Text :=
  [Query.join id base args, Query.join Percent.encode base args,
    Query.join id base (index args), Query.join Percent.encode base (index args)]

theorem mem_readings {u : Text} : u ∈ readings base args ↔
    ∃ l, (l = args ∨ l = index args) ∧ ∃ write : Text → Text, (write = id ∨ write = Percent.encode) ∧
      u = Query.join write base l := by
  simp only [readings, List.mem_cons, List.not_mem_nil, or_false]
  constructor
  · rintro (rfl | rfl | rfl | rfl)
    · exact ⟨_, .inl rfl, _, .inl rfl, rfl⟩
    · exact ⟨_, .inl rfl, _, .inr rfl, rfl⟩
    · exact ⟨_, .inr rfl, _, .inl rfl, rfl⟩
    · exact ⟨_, .inr rfl, _, .inr rfl, rfl⟩
  · rintro ⟨l, rfl | rfl, write, rfl | rfl, rfl⟩
    · exact .inl rfl
    · exact .inr (.inl rfl)
    · exact .inr (.inr (.inl rfl))
    · exact .inr (.inr (.inr rfl))

/-- Whatever is written of arguments, in one of three notations, is restored with the token. -/
theorem mem_restored_concat (hpercent : '%' ∉ base) (hargs : args ≠ []) {key token : Text}
    (hkey : ∀ c ∈ key, Percent.isUnreserved c = true)
    (htoken : ∀ c ∈ token, Percent.isUnreserved c = true) {l : List Argument}
    (hl : l = args ∨ l = index args ∨ l = reduce args) {write : Text → Text}
    (hwrite : write = id ∨ write = Percent.encode) :
    Query.join write base l ++ '&' :: (key ++ '=' :: token) ∈
      restored base (args ++ [(key, some token)]) := by
  have hbracket : '[' ∉ key := Percent.not_mem_of_unreserved hkey rfl
  have hne : l ≠ [] := by
    have hlength : l.length = args.length := by
      rcases hl with rfl | rfl | rfl
      · rfl
      · exact (Query.index_variants args).length_eq.symm
      · exact (Query.reduce_variants args).length_eq.symm
    intro hnil
    rw [hnil] at hlength
    exact hargs (List.length_eq_zero_iff.mp hlength.symm)
  have hwritten : writeArgument write (key, some token) = key ++ '=' :: token := by
    rcases hwrite with rfl | rfl
    · rfl
    · exact Query.encoded_of_unreserved hkey htoken
  have hrebuilt : Query.join write base (l ++ [(key, some token)]) ∈
      rebuilt base (l ++ [(key, some token)]) := by
    unfold rebuilt
    rw [Percent.decode_eq_self hpercent]
    rcases hwrite with rfl | rfl
    · exact List.mem_cons_self
    · exact List.mem_cons_of_mem _ List.mem_cons_self
  rw [join_concat write base hne, hwritten] at hrebuilt
  rw [mem_restored, Query.index_concat args (Query.unindexed?_of_not_mem hbracket),
    Query.reduce_concat args hbracket]
  rcases hl with rfl | rfl | rfl
  · exact .inl hrebuilt
  · exact .inr (.inl hrebuilt)
  · exact .inr (.inr hrebuilt)

end Candidate

/-! ## The verdict -/

namespace Guard

open Candidate (Unmarked isSeparator readings)

/-- What was signed for the given arguments can be told from what was sent, whether that was them or
the numbered ones. -/
theorem exists_notation {base signed : Text} {given sent : List Argument}
    (hsent : sent = given ∨ sent = index given ∧ ∀ a ∈ given, ¬Numbered a.1)
    (hsigned : signed ∈ readings base given) :
    ∃ l, (l = sent ∨ l = index sent ∨ l = reduce sent) ∧ ∃ write : Text → Text,
      (write = id ∨ write = Percent.encode) ∧ signed = Query.join write base l := by
  obtain ⟨l, hl, write, hwrite, rfl⟩ := Candidate.mem_readings.mp hsigned
  refine ⟨l, ?_, write, hwrite, rfl⟩
  rcases hsent with rfl | ⟨rfl, hgiven⟩
  · exact hl.imp_right .inl
  · rw [Query.reduce_index hgiven]
    exact hl.symm.imp_right .inr

/-- A token behind arguments that are named otherwise is the first one. -/
theorem firstToken_withArguments {e : Event} {keys : List Text} {k token : Text} {sent : List Argument}
    (hk : k ∈ keys) (hkeys : ∀ a ∈ sent, a.1 ∉ keys)
    (hfilled : ∀ a ∈ sent ++ [(k, some token)], a ≠ ([], none)) :
    FirstToken keys (e.withArguments (sent ++ [(k, some token)])).request k token := by
  have hlookup : ∀ key ∈ keys, ((sent ++ [(k, some token)]).map pair).lookup key =
      [(k, token)].lookup key := by
    intro key hkey
    have hnone : (sent.map pair).lookup key = none := by
      refine List.lookup_eq_none_iff.mpr fun p hp => ?_
      obtain ⟨a, ha, rfl⟩ := List.mem_map.mp hp
      rw [bne_iff_ne]
      rintro rfl
      exact hkeys a ha hkey
    rw [List.map_append, List.lookup_append, hnone]
    rfl
  obtain ⟨before, after, rfl, hbefore⟩ := List.eq_append_cons_of_mem hk
  refine ⟨before, after, rfl, fun key hkey => ?_, ?_⟩
  · have hne : (key == k) = false := beq_false_of_ne fun h => hbefore (h ▸ hkey)
    rw [e.argument?_withArguments hfilled, hlookup key (List.mem_append_left _ hkey),
      List.lookup_cons, hne]
    rfl
  · rw [e.argument?_withArguments hfilled, hlookup k hk]
    exact List.lookup_cons_self

/-- **Encoded requests, readable signatures.** A client sends arguments encoded, as they are or
numbered by `index`, with the keyed digest of one of the four `readings` of the URL. If the guard
`Demands` a token, it verifies this one. -/
theorem judge_encoded_request {g : Guard} {e : Event} {response : Http.Response}
    {k privateKey signed : Text} {given sent : List Argument} (hk : k ∈ g.signer.keys)
    (hplain : ∀ c ∈ k, Percent.isUnreserved c = true)
    (hsign : ∀ data privateKey, g.signer.sign k data privateKey = .ok (Hmac.signature privateKey data))
    (hprotocol : e.protocol = .incoming) (hquestion : '?' ∉ e.request.base)
    (hpercent : '%' ∉ e.request.base) (hgiven : given ≠ []) (hnames : ∀ a ∈ given, a.1 ≠ [])
    (hsent : sent = given ∨ sent = index given ∧ ∀ a ∈ given, ¬Numbered a.1)
    (hkeys : ∀ a ∈ sent, a.1 ∉ g.signer.keys) (hsigned : signed ∈ readings e.request.base given)
    (hunmarked : Unmarked (k ++ ['=']) signed)
    (hend : ∀ t c, signed = t ++ [c] → isSeparator c = false)
    (hdemands : Demands g (e.withToken sent k (Hmac.signature privateKey signed)) response privateKey) :
    (e.withToken sent k (Hmac.signature privateKey signed)).request.url =
      Query.join Percent.encode e.request.base sent ++
        '&' :: (k ++ '=' :: Hmac.signature privateKey signed) ∧
    g.judge (e.withToken sent k (Hmac.signature privateKey signed)) response = .ok .verified := by
  have htoken : ∀ c ∈ Hmac.signature privateKey signed, Percent.isUnreserved c = true :=
    fun _ => Hmac.mem_signature
  have hvariants : List.Forall₂ Variant given sent := by
    rcases hsent with rfl | ⟨rfl, -⟩
    · exact Query.self_variants _
    · exact Query.index_variants _
  have hne : sent ≠ [] := by
    rintro rfl
    exact hgiven (List.forall₂_nil_right_iff.mp hvariants)
  have hfilled : ∀ a ∈ sent ++ [(k, some (Hmac.signature privateKey signed))], a ≠ ([], none) := by
    rintro a ha rfl
    rcases List.mem_append.mp ha with ha | ha
    · exact Query.names_variants hvariants hnames _ ha rfl
    · cases List.mem_singleton.mp ha
  have hwithToken := e.withToken_eq hne hplain htoken
  refine ⟨e.url_withToken hne k _, ?_⟩
  rw [hwithToken] at hdemands ⊢
  refine judge_fromArguments hsign hquestion hdemands (firstToken_withArguments hk hkeys hfilled) ?_
  rw [Query.arguments_encoded hfilled]
  obtain ⟨l, hl, write, hwrite, rfl⟩ := exists_notation hsent hsigned
  have hstrip := Candidate.strip_last (Candidate.marker_of_unreserved hplain) hunmarked hend
    (Percent.not_mem_of_unreserved htoken rfl)
  refine Candidate.mem_stripped.mpr ⟨_, Candidate.mem_restored_concat hpercent hne hplain htoken hl
    hwrite, _, .inl ⟨?_, rfl⟩, hstrip.symm⟩
  rw [hprotocol]
  rfl

theorem demands_withToken (signer : Signer) {args : List Argument} (hargs : args ≠ [])
    (hnames : ∀ a ∈ args, a.1 ≠ [] ∧ a.1 ≠ Http.Request.publicKeyArgument) {token : Text}
    (htoken : ∀ c ∈ token, Percent.isUnreserved c = true) :
    Demands { plainGuard with signer := signer }
      (plainEvent.withToken args "accessToken".toList token) .initial "key".toList := by
  rw [plainEvent.withToken_eq hargs accessToken_plain htoken]
  refine demands_plainEvent signer ?_ ?_
  · rintro a ha rfl
    rcases List.mem_append.mp ha with ha | ha
    · exact (hnames _ ha).1 rfl
    · cases List.mem_singleton.mp ha
  · refine List.lookup_eq_none_iff.mpr fun p hp => ?_
    obtain ⟨a, ha, rfl⟩ := List.mem_map.mp hp
    rw [bne_iff_ne]
    rcases List.mem_append.mp ha with ha | ha
    · exact (hnames a ha).2.symm
    · rw [List.mem_singleton.mp ha]
      exact (by decide +kernel : Http.Request.publicKeyArgument ≠ "accessToken".toList)

/-- An array and an argument without a value, with a space in its name. -/
def spaced : List Argument := [("t[]".toList, some "border".toList), ("a b".toList, none)]

/-- The plain URL may be signed where the numbered one is sent. -/
theorem judge_encoded_request_spaced :
    plainGuard.judge (plainEvent.withToken (index spaced) "accessToken".toList
      (Hmac.signature "key".toList "https://imbo/users/christer?t[]=border&a b".toList)) .initial =
        .ok .verified := by
  obtain ⟨signed, hsigned⟩ : ∃ signed, signed = "https://imbo/users/christer?t[]=border&a b".toList :=
    ⟨_, rfl⟩
  have hmem : signed ∈ readings plainEvent.request.base spaced := by
    rw [hsigned]
    decide +kernel
  have hunmarked : Unmarked ("accessToken".toList ++ ['=']) signed := by
    rw [hsigned, Candidate.unmarked_iff]
    decide +kernel
  have hlast : signed.getLast? = some 'b' := by
    rw [hsigned]
    decide +kernel
  have hdemands : Demands plainGuard (plainEvent.withToken (index spaced) "accessToken".toList
      (Hmac.signature "key".toList signed)) .initial "key".toList :=
    demands_withToken plainGuard.signer (by decide +kernel) (by decide +kernel)
      fun _ => Hmac.mem_signature
  rw [← hsigned]
  exact (judge_encoded_request List.mem_cons_self accessToken_plain (fun _ _ => rfl) rfl
    (by decide +kernel) (by decide +kernel) (by decide +kernel) (by decide +kernel)
    (.inr ⟨rfl, by decide +kernel⟩) (by decide +kernel) hmem hunmarked
    (Candidate.isSeparator_last hlast rfl) hdemands).2

/-- A signer that looks for tokens under the name of an array's first element before it looks
elsewhere. -/
def numberedGuard : Guard :=
  { plainGuard with signer := .hmac ["t[0]".toList, "accessToken".toList] }

/-- An array with a value that has to be encoded. -/
def slashed : List Argument := [("t[]".toList, some ['a', '/', 'b'])]

/-- What is numbered may get the name of a token. -/
theorem judge_numbered_key : ∃ signed : Text,
    "accessToken".toList ∈ numberedGuard.signer.keys ∧
    (∀ c ∈ "accessToken".toList, Percent.isUnreserved c = true) ∧
    plainEvent.protocol = .incoming ∧
    '?' ∉ plainEvent.request.base ∧ '&' ∉ plainEvent.request.base ∧
    '%' ∉ plainEvent.request.base ∧
    (∀ a ∈ slashed, a.1 ≠ [] ∧ a.1 ∉ numberedGuard.signer.keys ∧ ¬Numbered a.1) ∧
    signed ∈ readings plainEvent.request.base slashed ∧
    Unmarked ("accessToken".toList ++ ['=']) signed ∧
    (∀ t c, signed = t ++ [c] → isSeparator c = false) ∧
    Demands numberedGuard (plainEvent.withToken (index slashed) "accessToken".toList
      (Hmac.signature "key".toList signed)) .initial "key".toList ∧
    numberedGuard.judge (plainEvent.withToken (index slashed) "accessToken".toList
      (Hmac.signature "key".toList signed)) .initial ≠ .ok .verified := by
  obtain ⟨signed, hsigned⟩ :
      ∃ signed, signed = Query.join id plainEvent.request.base slashed := ⟨_, rfl⟩
  have hmem : signed ∈ readings plainEvent.request.base slashed := hsigned ▸ List.mem_cons_self
  have hunmarked : Unmarked ("accessToken".toList ++ ['=']) signed := by
    rw [hsigned, Candidate.unmarked_iff]
    decide +kernel
  have hlast : signed.getLast? = some 'b' := by
    rw [hsigned]
    decide +kernel
  obtain ⟨token, htoken, hplain⟩ : ∃ token, token = Hmac.signature "key".toList signed ∧
      ∀ c ∈ token, Percent.isUnreserved c = true := ⟨_, rfl, fun _ => Hmac.mem_signature⟩
  have hdemands : Demands numberedGuard
      (plainEvent.withToken (index slashed) "accessToken".toList token) .initial "key".toList :=
    demands_withToken _ (by decide +kernel) (by decide +kernel) hplain
  have hfirst : FirstToken numberedGuard.signer.keys
      (plainEvent.withToken (index slashed) "accessToken".toList token).request "t[0]".toList
        ['a', '/', 'b'] := by
    have hindex : index slashed = [("t[0]".toList, some ['a', '/', 'b'])] := by decide +kernel
    refine ⟨[], _, rfl, nofun, ?_⟩
    rw [plainEvent.withToken_eq (by decide +kernel) accessToken_plain hplain, hindex,
      plainEvent.argument?_withArguments (by simp)]
    exact List.lookup_cons_self
  refine ⟨signed, ?_⟩
  rw [← htoken]
  exact ⟨List.mem_cons_of_mem _ List.mem_cons_self, accessToken_plain, rfl,
    by decide +kernel, by decide +kernel, by decide +kernel, by decide +kernel, hmem, hunmarked,
    Candidate.isSeparator_last hlast rfl, hdemands,
    judge_no_digest (fun _ _ => rfl) hdemands.unmarked hfirst
      (List.mem_cons_of_mem 'a' List.mem_cons_self) rfl⟩

end Guard

end AliasGate
