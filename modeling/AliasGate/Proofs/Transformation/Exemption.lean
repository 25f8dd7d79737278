import AliasGate.Proofs.Text.Fields
import AliasGate.Proofs.Token.Finding
import Mathlib.Data.List.TakeWhile
import Mathlib.Logic.Relation

/-!
# Which queries are exempt

The decision of the filter depends on the set of names that a query asks for, and on nothing else of
the query.

* `Transformation.isKey_iff`: the names of the arguments that ask for transformations.
* `Transformation.Asks pairs name`: the query asks for a transformation of that name.
* `Transformation.Edit`: the changes to a query after which it asks for the same.
* `Transformation.Filter.exempts_iff`: a query is exempt by the names that it asks for.
* `Transformation.Filter.exempts_eq_of_edits`: such changes, made one after another or undone, do
  not change the decision.
* `Transformation.Filter.exemption_law`: all of this together, and that asking for more exempts
  nothing.
-/

namespace AliasGate

theorem Text.cut_fst {α : Type} [DecidableEq α] (sep : α) (s : List α) :
    (cut sep s).1 = s.takeWhile (· ≠ sep) := by
  induction s with
  | nil => rfl
  | cons c s ih => by_cases hc : c = sep <;> simp [cut, hc, ih]

namespace Transformation

/-! ## Names of arguments -/

/-- `t`, `t[]` and `t[3]`, with any number of digits of any script in the brackets. -/
inductive KeyForm : Text → Prop
  | plain : KeyForm ['t']
  | bracketed (digits : Text) (h : ∀ c ∈ digits, Text.isDecimalDigit c = true) :
    KeyForm ('t' :: '[' :: digits ++ [']'])

/-- The argument asks for a transformation by its name, which is of that form. A line feed may end
it. -/
def IsKey (key : Text) : Prop := ∃ form, KeyForm form ∧ (key = form ∨ key = form ++ ['\n'])

theorem isPlainKey_iff {key : Text} : isPlainKey key = true ↔ KeyForm key := by
  constructor
  · intro h
    unfold isPlainKey at h
    split at h
    · split at h
      · exact .plain
      next s =>
        have hrest : s.dropWhile Text.isDecimalDigit = [']'] := by simpa using h
        have hs : s = s.takeWhile Text.isDecimalDigit ++ [']'] := by
          rw [← hrest, List.takeWhile_append_dropWhile]
        rw [hs]
        exact .bracketed _ fun c hc => List.mem_takeWhile_imp hc
      · cases h
    · cases h
  · rintro (_ | ⟨digits, hdigits⟩)
    · rfl
    · have hbracket : Text.isDecimalDigit ']' = false := by decide
      simp [isPlainKey, List.dropWhile_append_of_pos hdigits, hbracket]

theorem isKey_iff {key : Text} : isKey key = true ↔ IsKey key := by
  have hplain : isKey key = true ↔
      isPlainKey key = true ∨ ∃ form, key = form ++ ['\n'] ∧ isPlainKey form = true := by
    have hform : ∀ form, key = form ++ ['\n'] ↔ Text.before? ['\n'] key = some form := fun _ =>
      Text.before?_eq_some_iff.symm
    simp only [isKey, Text.orBeforeNewline, hform]
    cases hkey : isPlainKey key <;> cases Text.before? ['\n'] key <;> simp
  rw [hplain]
  constructor
  · rintro (h | ⟨form, hkey, h⟩)
    · exact ⟨key, isPlainKey_iff.mp h, .inl rfl⟩
    · exact ⟨form, isPlainKey_iff.mp h, .inr hkey⟩
  · rintro ⟨form, h, rfl | hkey⟩
    · exact .inl (isPlainKey_iff.mpr h)
    · exact .inr ⟨form, hkey, isPlainKey_iff.mpr h⟩

/-! ## What is asked for -/

/-- An argument asks for a transformation of a name: the name stands before the first colon of its
value, which is not empty. -/
structure AsksBy (pair : Text × Text) (name : Text) : Prop where
  key : IsKey pair.1
  value : pair.2 ≠ []
  name : pair.2.takeWhile (· ≠ ':') = name

/-- Some argument of a query asks for a transformation of the name. -/
def Asks (pairs : List (Text × Text)) (name : Text) : Prop := ∃ pair ∈ pairs, AsksBy pair name

theorem mem_names_iff {pairs : List (Text × Text)} {name : Text} :
    name ∈ (ofQuery pairs).map (·.name) ↔ Asks pairs name := by
  have hname : ∀ value, (ofValue value).name = value.takeWhile (· ≠ ':') := Text.cut_fst ':'
  simp only [ofQuery, List.mem_map, List.mem_filter, Bool.and_eq_true, bne_iff_ne, isKey_iff]
  constructor
  · rintro ⟨t, ⟨pair, ⟨hmem, hkey, hvalue⟩, rfl⟩, rfl⟩
    exact ⟨pair, hmem, hkey, hvalue, (hname pair.2).symm⟩
  · rintro ⟨pair, hmem, hkey, hvalue, rfl⟩
    exact ⟨ofValue pair.2, ⟨pair, ⟨hmem, hkey, hvalue⟩, rfl⟩, hname pair.2⟩

theorem Asks.mono {p q : List (Text × Text)} {name : Text} (h : Asks p name) (hsub : p ⊆ q) :
    Asks q name := by
  obtain ⟨pair, hmem, hasks⟩ := h
  exact ⟨pair, hsub hmem, hasks⟩

theorem asks_insert {before after : List (Text × Text)} {pair : Text × Text} {name : Text} :
    Asks (before ++ pair :: after) name ↔ AsksBy pair name ∨ Asks (before ++ after) name := by
  simp only [Asks, List.mem_append, List.mem_cons, or_and_right, exists_or, exists_eq_left]
  exact or_left_comm

/-! ## Changes that ask for nothing else -/

/-- A change to a query: the same arguments in another order or another number of times, an argument
under another name that asks, another text after a colon, or one argument more that does not ask. -/
inductive Edit : List (Text × Text) → List (Text × Text) → Prop
  | rearrange {p q : List (Text × Text)} (h : ∀ pair, pair ∈ p ↔ pair ∈ q) : Edit p q
  | rename {before after : List (Text × Text)} {key key' : Text} (value : Text) (h : IsKey key)
    (h' : IsKey key') : Edit (before ++ (key, value) :: after) (before ++ (key', value) :: after)
  | reparam {before after : List (Text × Text)} (key name params params' : Text) :
    Edit (before ++ (key, name ++ ':' :: params) :: after)
      (before ++ (key, name ++ ':' :: params') :: after)
  | add {before after : List (Text × Text)} {key : Text} (value : Text) (h : ¬IsKey key) :
    Edit (before ++ after) (before ++ (key, value) :: after)

theorem Edit.asks_iff {p q : List (Text × Text)} (h : Edit p q) (name : Text) :
    Asks p name ↔ Asks q name := by
  cases h with
  | rearrange h => exact exists_congr fun pair => and_congr_left fun _ => h pair
  | rename value h h' =>
    rw [asks_insert, asks_insert]
    exact or_congr_left ⟨fun ha => ⟨h', ha.value, ha.name⟩, fun ha => ⟨h, ha.value, ha.name⟩⟩
  | reparam key name params params' =>
    have hname : ∀ rest rest' : Text, (name ++ ':' :: rest).takeWhile (· ≠ ':') =
        (name ++ ':' :: rest').takeWhile (· ≠ ':') := fun rest rest' => by
      simp [List.takeWhile_append]
    rw [asks_insert, asks_insert]
    exact or_congr_left ⟨fun ha => ⟨ha.key, by simp, (hname params' params).trans ha.name⟩,
      fun ha => ⟨ha.key, by simp, (hname params params').trans ha.name⟩⟩
  | add value h =>
    rw [asks_insert]
    exact (or_iff_right fun ha : AsksBy _ _ => h ha.key).symm

/-- Changes made one after another, or undone. -/
theorem asks_iff_of_edits {p q : List (Text × Text)} (h : Relation.EqvGen Edit p q) (name : Text) :
    Asks p name ↔ Asks q name := by
  induction h with
  | rel p q h => exact h.asks_iff name
  | refl p => exact Iff.rfl
  | symm p q _ ih => exact ih.symm
  | trans p q r _ _ ih ih' => exact ih.trans ih'

/-! ## The decision -/

namespace Filter

/-- The decision of the filter on a decoded query. -/
def exempts (f : Filter) (pairs : List (Text × Text)) : Bool :=
  f.isExempt ((ofQuery pairs).map (·.name))

theorem exempts_iff {f : Filter} {pairs : List (Text × Text)} :
    f.exempts pairs = true ↔
      (f.whitelist ≠ [] ∨ f.blacklist ≠ []) ∧ (∃ name, Asks pairs name) ∧
      (∀ name, Asks pairs name → name ∉ f.blacklist) ∧
      (f.whitelist ≠ [] → ∀ name, Asks pairs name → name ∈ f.whitelist) := by
  have hnames : ∀ name, name ∈ (ofQuery pairs).map (·.name) ↔ Asks pairs name := fun _ =>
    mem_names_iff
  unfold exempts
  generalize (ofQuery pairs).map (·.name) = names at hnames ⊢
  have hsome : names ≠ [] ↔ ∃ name, Asks pairs name := by
    simp only [← hnames]
    exact ⟨List.exists_mem_of_ne_nil names, fun ⟨_, hname⟩ => List.ne_nil_of_mem hname⟩
  simp only [isExempt, configured, Bool.and_eq_true, Bool.or_eq_true, bne_iff_ne, beq_iff_eq,
    List.all_eq_true, decide_eq_true_eq, hsome, hnames, Decidable.or_iff_not_imp_left, and_assoc]

theorem exempts_eq_of_edits (f : Filter) {p q : List (Text × Text)}
    (h : Relation.EqvGen Edit p q) : f.exempts p = f.exempts q := by
  rw [Bool.eq_iff_iff, exempts_iff, exempts_iff]
  simp only [asks_iff_of_edits h]

/-- What is part of an exempt query and asks for something is exempt. -/
theorem exempts_of_subset {f : Filter} {p q : List (Text × Text)} (h : f.exempts q = true)
    (hsub : p ⊆ q) {name : Text} (hasks : Asks p name) : f.exempts p = true := by
  obtain ⟨hconfigured, -, hallowed, hlisted⟩ := exempts_iff.mp h
  refine exempts_iff.mpr ⟨hconfigured, ⟨name, hasks⟩, fun other hother => ?_, fun hlist => ?_⟩
  · exact hallowed other (hother.mono hsub)
  · exact fun other hother => hlisted hlist other (hother.mono hsub)

end Filter

end Transformation

/-- What the guard finds of a request that is not marked: it is exempt exactly if its query is. -/
theorem Guard.judge_exempt_iff {g : Guard} {e : Event} {response : Http.Response}
    (hmark : response.hasHeader Http.Response.shortUrlHeader = false) :
    g.judge e response = .ok .exempt ↔ g.filter.exempts e.request.queryPairs = true := by
  have hfinding := judge_finding (g := g) (e := e) hmark
  have hstrict : ∀ {x : Except Failure Verdict}, x ≠ .ok .exempt →
      g.filter.isExempt e.request.transformationNames = false →
      (x = .ok .exempt ↔ g.filter.exempts e.request.queryPairs = true) :=
    fun hx h => iff_of_false hx (Bool.eq_false_iff.mp h)
  generalize g.judge e response = x at hfinding ⊢
  cases hfinding with
  | exempt h => exact iff_of_true rfl h
  | missing h => exact hstrict nofun h
  | unknownKey h => exact hstrict nofun h
  | verified h => exact hstrict nofun h
  | incorrect h => exact hstrict nofun h
  | unsigned h => exact hstrict nofun h

/-- **The exemption law.** `exempts` by the lists of the filter and the names that the query `Asks`
for. Chains of `Edit`s do not change it, a longer query does not gain it, and `Guard.judge` goes by
it on responses without the mark. -/
theorem Transformation.Filter.exemption_law (f : Filter) :
    (∀ pairs, f.exempts pairs = true ↔
      (f.whitelist ≠ [] ∨ f.blacklist ≠ []) ∧ (∃ name, Asks pairs name) ∧
      (∀ name, Asks pairs name → name ∉ f.blacklist) ∧
      (f.whitelist ≠ [] → ∀ name, Asks pairs name → name ∈ f.whitelist)) ∧
    (∀ p q, Relation.EqvGen Edit p q → f.exempts p = f.exempts q) ∧
    (∀ p q name, p ⊆ q → Asks p name → f.exempts p = false → f.exempts q = false) ∧
    ∀ (g : Guard) (e : Event) (response : Http.Response), g.filter = f →
      response.hasHeader Http.Response.shortUrlHeader = false →
      (g.judge e response = .ok .exempt ↔ f.exempts e.request.queryPairs = true) := by
  refine ⟨fun pairs => exempts_iff, fun p q => exempts_eq_of_edits f, ?_, ?_⟩
  · intro p q name hsub hasks hp
    rw [← Bool.not_eq_true] at hp ⊢
    exact fun hq => hp (exempts_of_subset hq hsub hasks)
  · rintro g e response rfl hmark
    exact Guard.judge_exempt_iff hmark

end AliasGate
