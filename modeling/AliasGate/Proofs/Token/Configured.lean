import AliasGate.Dispatch.Listener
import AliasGate.Proofs.Action
import AliasGate.Proofs.Token.Finding

/-!
# Configured signers are one signer

However settings make their signer, a guard with it cannot be told from one with the keyed digest on
the argument keys that the settings ask for.

* `Signer.configured_eq_error_iff`: which settings make none, and what they are told.
* `Signer.Alike`: signers with the same argument keys that sign alike under each of these.
* `Guard.judge_alike`, `Guard.actsAs_alike`: guards that differ in such signers alone.
* `Signer.configured_guards`: the signers of settings, in every guard.
-/

namespace AliasGate

namespace Signer

/-! ## Entries that name no algorithm -/

/-- The entry names an algorithm, in any letter case. -/
def NamesAlgorithm (entry : Text × Text) : Prop := Text.lower entry.2 ∈ algorithms

instance (entry : Text × Text) : Decidable (NamesAlgorithm entry) :=
  inferInstanceAs (Decidable (Text.lower entry.2 ∈ algorithms))

theorem ofEntry_eq_error_iff {entry : Text × Text} {f : Failure} :
    ofEntry entry = .error f ↔ ¬NamesAlgorithm entry ∧ f = .unknownAlgorithm entry.2 entry.1 := by
  unfold ofEntry NamesAlgorithm
  split
  next h => exact iff_of_false nofun fun hf => hf.1 h
  next h => simp [h, eq_comm]

theorem exists_ofEntry_iff {entry : Text × Text} :
    (∃ r, ofEntry entry = .ok r) ↔ NamesAlgorithm entry := by
  unfold ofEntry NamesAlgorithm
  split
  next h => exact iff_of_true ⟨_, rfl⟩ h
  next h => exact iff_of_false (fun ⟨_, hr⟩ => nomatch hr) h

variable {entries : Keyed Text Text} {defaults : List Text} {s s' : Signer} {f : Failure}

/-- Nothing is refused behind the entries. -/
theorem configured_eq_error : configured entries defaults = .error f ↔
    entries.mapM ofEntry = .error f := by
  cases entries with
  | nil => exact iff_of_false nofun nofun
  | cons e entries =>
    rw [configured]
    · cases hm : (e :: entries).mapM ofEntry with
      | error f' => simp [bind, Except.bind]
      | ok signers =>
        refine iff_of_false ?_ nofun
        obtain rfl := mapM_ok ofEntry_ok hm
        simp only [bind, Except.bind]
        split
        · exact nofun
        · rw [choice_of_signers (by simp)]
          exact nofun
    · exact nofun

/-- Settings are refused for their first entry that names no algorithm. -/
theorem configured_eq_error_iff : configured entries defaults = .error f ↔
    ∃ before entry after, entries = before ++ entry :: after ∧
      (∀ e ∈ before, NamesAlgorithm e) ∧ ¬NamesAlgorithm entry ∧
      f = .unknownAlgorithm entry.2 entry.1 := by
  rw [configured_eq_error, mapM_eq_error_iff]
  simp only [exists_ofEntry_iff, ofEntry_eq_error_iff]

theorem exists_configured_error_iff : (∃ f, configured entries defaults = .error f) ↔
    ∃ e ∈ entries, ¬NamesAlgorithm e := by
  constructor
  · rintro ⟨f, hf⟩
    obtain ⟨before, e, after, rfl, -, hunnamed, -⟩ := configured_eq_error_iff.mp hf
    exact ⟨e, List.mem_append_right before List.mem_cons_self, hunnamed⟩
  · rintro ⟨e, he, hunnamed⟩
    obtain ⟨first, hfirst⟩ :
        ∃ first, entries.find? (fun e => decide ¬NamesAlgorithm e) = some first :=
      Option.isSome_iff_exists.mp (List.find?_isSome.mpr ⟨e, he, decide_eq_true hunnamed⟩)
    obtain ⟨hfirst, before, after, hentries, hbefore⟩ := List.find?_eq_some_iff_append.mp hfirst
    refine ⟨_, configured_eq_error_iff.mpr
      ⟨before, first, after, hentries, fun b hb => ?_, of_decide_eq_true hfirst, rfl⟩⟩
    simpa using hbefore b hb

/-! ## Signers that sign alike -/

/-- Signers with the same argument keys that sign alike under each of these. -/
structure Alike (s s' : Signer) : Prop where
  keys : s.keys = s'.keys
  sign : ∀ key ∈ s.keys, ∀ data privateKey,
    s.sign key data privateKey = s'.sign key data privateKey

/-- The argument keys that settings ask for: those of the entries; without entries the default ones,
or else the one under which tokens come unless settings say otherwise. -/
def askedKeys (entries : Keyed Text Text) (defaults : List Text) : List Text :=
  match Keyed.keys entries, defaults with
  | [], [] => [defaultKey]
  | [], keys => keys
  | keys, _ => keys

theorem askedKeys_of_ne_nil (h : entries ≠ []) (defaults : List Text) :
    askedKeys entries defaults = Keyed.keys entries := by
  obtain ⟨e, entries, rfl⟩ := List.exists_cons_of_ne_nil h
  rfl

/-- All of them are argument keys of the keyed digest, which has a default of its own. -/
theorem hmac_keys_askedKeys (entries : Keyed Text Text) (defaults : List Text) :
    (hmac (askedKeys entries defaults)).keys = askedKeys entries defaults := by
  rcases entries with _ | ⟨e, entries⟩
  · cases defaults <;> rfl
  · rfl

theorem configured_keys (h : configured entries defaults = .ok s) :
    s.keys = askedKeys entries defaults := by
  cases configured_shape h with
  | default hnil =>
    subst hnil
    cases defaults <;> rfl
  | single hsingle =>
    subst hsingle
    rfl
  | several hne => exact (askedKeys_of_ne_nil hne defaults).symm

theorem configured_alike (h : configured entries defaults = .ok s) :
    s.Alike (hmac (askedKeys entries defaults)) where
  keys := (configured_keys h).trans (hmac_keys_askedKeys entries defaults).symm
  sign _ hkey data privateKey := configured_sign h hkey data privateKey

end Signer

/-! ## Guards that differ in their signers alone -/

section
variable {s s' : Signer}

theorem Guard.signs_alike {key privateKey : Text}
    (h : ∀ data, s.sign key data privateKey = s'.sign key data privateKey) (token : Text)
    (urls : List Text) : signs s key privateKey token urls = signs s' key privateKey token urls := by
  induction urls with
  | nil => rfl
  | cons url urls ih => rw [signs, signs, h, ih]

/-- The token is looked for under the same argument keys, and only under these it is compared. -/
theorem Guard.judge_alike (h : s.Alike s') (g : Guard) (e : Event) (response : Http.Response) :
    { g with signer := s }.judge e response = { g with signer := s' }.judge e response := by
  have htoken : { g with signer := s }.token? e.request =
      { g with signer := s' }.token? e.request := by
    simp only [token?, h.keys]
  unfold judge
  rw [← htoken]
  cases hfound : { g with signer := s }.token? e.request with
  | none => rfl
  | some found =>
    obtain ⟨key, token⟩ := found
    have hkey : key ∈ s.keys := (token?_eq_some_iff.mp hfound).mem
    simp only [judgeToken, signs_alike (h.sign key hkey · _)]

/-- The guards listen to the same events and do the same on each: they come to the same verdict or
failure, and count and answer alike. -/
structure Guard.ActsAs (g g' : Guard) : Prop where
  subscriptions : g.subscriptions = g'.subscriptions
  check : ∀ (δ : Type) (e : Event),
    (Listener.check g e : Action (Stage δ) Verdict) = Listener.check g' e
  tell : ∀ (δ : Type) (db : Database δ) (e : Event),
    (Listener.guard g).tell db e = (Listener.guard g').tell db e

theorem Guard.actsAs_alike (h : s.Alike s') (g : Guard) :
    Guard.ActsAs { g with signer := s } { g with signer := s' } := by
  have hcheck : ∀ (δ : Type) (e : Event),
      (Listener.check { g with signer := s } e : Action (Stage δ) Verdict) =
        Listener.check { g with signer := s' } e := by
    intro δ e
    simp only [Listener.check, judge_alike h]
  exact ⟨rfl, hcheck, fun δ db e => by simp only [Listener.tell, hcheck]⟩

end

/-! ## Settings -/

/-- **One signer.** Settings make a signer exactly if each of their entries names an algorithm, and
are told of a fault in the configuration otherwise. The signer has the argument keys that they ask
for, in their order, and a guard with it acts as one with the keyed digest on these. -/
theorem Signer.configured_guards (entries : Keyed Text Text) (defaults : List Text) :
    ((∃ f, configured entries defaults = .error f) ↔
        ∃ e ∈ entries, Text.lower e.2 ∉ algorithms) ∧
      (∀ f, configured entries defaults = .error f → f.kind = .configuration) ∧
      ∀ s, configured entries defaults = .ok s →
        s.keys = askedKeys entries defaults ∧
        ∀ g : Guard, Guard.ActsAs { g with signer := s }
          { g with signer := hmac (askedKeys entries defaults) } := by
  refine ⟨exists_configured_error_iff, fun f hf => ?_, fun s hs =>
    ⟨configured_keys hs, Guard.actsAs_alike (configured_alike hs)⟩⟩
  obtain ⟨-, -, -, -, -, -, rfl⟩ := configured_eq_error_iff.mp hf
  rfl

/-- Three entries make a choice, which signs as one keyed digest does. -/
theorem Signer.configured_guards_choice :
    ∃ s, configured [("accessToken".toList, "sha256".toList), ("token".toList, "SHA256".toList),
        ("".toList, "ShA256".toList)] ["signature".toList] = .ok s ∧ s.kind = .choice ∧
      s.keys = ["accessToken".toList, "token".toList, "".toList] ∧
      ∀ g : Guard, Guard.ActsAs { g with signer := s }
        { g with signer := hmac ["accessToken".toList, "token".toList, "".toList] } := by
  obtain ⟨s, hs, hkind⟩ : ∃ s, configured [("accessToken".toList, "sha256".toList),
      ("token".toList, "SHA256".toList), ("".toList, "ShA256".toList)] ["signature".toList] = .ok s ∧
      decide (s.kind = .choice) = true :=
    Except.exists_ok_of_any (by decide +kernel)
  obtain ⟨hkeys, hguards⟩ := (configured_guards _ _).2.2 s hs
  exact ⟨s, hs, of_decide_eq_true hkind, hkeys, hguards⟩

end AliasGate
