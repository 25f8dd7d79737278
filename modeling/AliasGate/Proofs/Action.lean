import AliasGate.Action

/-!
# Performing actions

How each building block of an action changes a state, so that a composed action is followed step by
step with `simp`, and which parts of a state an action leaves as they are.

* `Action.perform_bind` and the `perform_*` lemmas: one equation for each building block.
* `Action.Ends x Q E`: an ending is a result and a state with `Q`, or a fault and a state with `E`.
  What a sequence ends in follows from its parts (`Ends.andThen`).
* `Action.Keeps f a`: whatever the state and however it ends, `a` leaves the part `f` as it was. The
  property is closed under sequencing (`Keeps.bind`), so it is read off the text of an action.
* `Action.Matches R a b`: from states in the relation `R`, both end in the same result, or the same
  fault, and in states in that relation. This is closed under sequencing as well (`Matches.bind`).
-/

namespace Except

variable {ε α : Type} {x : Except ε α} {a : α}

theorem eq_ok_of_toOption (h : x.toOption = some a) : x = .ok a := by
  cases x with
  | ok b => exact congrArg ok (Option.some.inj h)
  | error e => cases h

/-- A result with a property exists if the test for it says so. -/
theorem exists_ok_of_any {p : α → Bool} (h : x.toOption.any p = true) :
    ∃ a, x = .ok a ∧ p a = true := by
  cases x with
  | ok a => exact ⟨a, rfl, h⟩
  | error e => cases h

end Except

namespace AliasGate.Action

variable {σ τ α β γ : Type}

/-! ## Endings -/

/-- Goes on from an ending: with the rest after a result, not at all after a fault. -/
def andThen (x : Except Fault α × σ) (f : α → Action σ β) : Except Fault β × σ :=
  match x with
  | (.ok a, s) => (f a).perform s
  | (.error fault, s) => (.error fault, s)

@[simp] theorem andThen_ok (a : α) (s : σ) (f : α → Action σ β) :
    andThen (.ok a, s) f = (f a).perform s := rfl

@[simp] theorem andThen_error (fault : Fault) (s : σ) (f : α → Action σ β) :
    andThen (.error fault, s) f = (.error fault, s) := rfl

@[simp] theorem perform_bind (a : Action σ α) (f : α → Action σ β) (s : σ) :
    perform (a >>= f) s = andThen (a.perform s) f := by
  show (ExceptT.bindCont f (a.perform s).1).run (a.perform s).2 = _
  rcases a.perform s with ⟨_ | _, _⟩ <;> rfl

@[simp] theorem perform_map (f : α → β) (a : Action σ α) (s : σ) :
    perform (f <$> a) s = andThen (a.perform s) fun x => pure (f x) := by
  rw [← perform_bind, bind_pure_comp]

theorem andThen_andThen (x : Except Fault α × σ) (f : α → Action σ β) (g : β → Action σ γ) :
    andThen (andThen x f) g = andThen x fun a => f a >>= g := by
  rcases x with ⟨_ | a, s⟩
  · rfl
  · exact (perform_bind (f a) g s).symm

/-- An ending is a result and a state with `Q`, or a fault and a state with `E`. -/
def Ends (x : Except Fault α × σ) (Q : α → σ → Prop) (E : Fault → σ → Prop) : Prop :=
  match x with
  | (.ok a, s) => Q a s
  | (.error fault, s) => E fault s

theorem Ends.andThen {x : Except Fault α × σ} {f : α → Action σ β} {Q : α → σ → Prop}
    {R : β → σ → Prop} {E : Fault → σ → Prop} (hx : Ends x Q E)
    (hf : ∀ a s, Q a s → Ends ((f a).perform s) R E) : Ends (andThen x f) R E := by
  rcases x with ⟨fault | a, s⟩
  · exact hx
  · exact hf a s hx

theorem Ends.mono {x : Except Fault α × σ} {Q R : α → σ → Prop} {E F : Fault → σ → Prop}
    (hx : Ends x Q E) (hQ : ∀ a s, Q a s → R a s) (hE : ∀ fault s, E fault s → F fault s) :
    Ends x R F := by
  rcases x with ⟨fault | a, s⟩
  · exact hE fault s hx
  · exact hQ a s hx

/-! ## Building blocks -/

@[simp] theorem perform_pure (a : α) (s : σ) : (pure a : Action σ α).perform s = (.ok a, s) := rfl

@[simp] theorem perform_get (s : σ) : (get : Action σ σ).perform s = (.ok s, s) := rfl

@[simp] theorem perform_set (s t : σ) : (set t : Action σ PUnit).perform s = (.ok (), t) := rfl

@[simp] theorem perform_modify (f : σ → σ) (s : σ) :
    (modify f : Action σ PUnit).perform s = (.ok (), f s) := rfl

@[simp] theorem perform_fail (f : Failure) (s : σ) :
    (fail f : Action σ α).perform s = (.error (.failure f), s) := rfl

@[simp] theorem perform_breakOff (d : Defect) (s : σ) :
    (breakOff d : Action σ α).perform s = (.error (.defect d), s) := rfl

@[simp] theorem perform_ofFunction (f : σ → Except Fault α × σ) (s : σ) :
    (ofFunction f).perform s = f s := rfl

@[simp] theorem perform_ofResult (x : Except Fault α) (s : σ) :
    (ofResult x).perform s = (x, s) := by
  cases x <;> rfl

@[simp] theorem perform_ofExcept_ok (a : α) (s : σ) :
    (ofExcept (.ok a)).perform s = (.ok a, s) := rfl

@[simp] theorem perform_ofExcept_error (f : Failure) (s : σ) :
    (ofExcept (.error f) : Action σ α).perform s = (.error (.failure f), s) := rfl

@[simp] theorem perform_onPart (part : σ → τ) (replace : σ → τ → σ) (a : Action τ α) (s : σ) :
    (onPart part replace a).perform s =
      ((a.perform (part s)).1, replace s (a.perform (part s)).2) := rfl

/-- A sequence that ends with a result ended its first part with one. -/
theorem bind_ok {a : Action σ α} {f : α → Action σ β} {s s' : σ} {b : β}
    (h : (a >>= f).perform s = (.ok b, s')) :
    ∃ x t, a.perform s = (.ok x, t) ∧ (f x).perform t = (.ok b, s') := by
  rw [perform_bind] at h
  rcases ha : a.perform s with ⟨_ | x, t⟩ <;> rw [ha] at h
  · cases h
  · exact ⟨x, t, rfl, h⟩

/-! ## What an action leaves as it is -/

/-- The action leaves the part `f` of every state as it was. -/
def Keeps (f : σ → γ) (a : Action σ α) : Prop := ∀ s, f (a.perform s).2 = f s

theorem Keeps.bind {f : σ → γ} {a : Action σ α} {k : α → Action σ β} (ha : Keeps f a)
    (hk : ∀ x, Keeps f (k x)) : Keeps f (a >>= k) := by
  intro s
  rw [perform_bind]
  have h := ha s
  rcases hs : a.perform s with ⟨_ | x, t⟩ <;> rw [hs] at h
  · exact h
  · exact (hk x t).trans h

theorem Keeps.pure (f : σ → γ) (a : α) : Keeps f (Pure.pure a : Action σ α) := fun _ => rfl

theorem Keeps.fail (f : σ → γ) (e : Failure) : Keeps f (Action.fail e : Action σ α) := fun _ => rfl

theorem Keeps.ofResult (f : σ → γ) (x : Except Fault α) :
    Keeps f (Action.ofResult x : Action σ α) := by
  intro s
  rw [perform_ofResult]

/-! ## Two actions side by side -/

/-- From related states, both actions end in the same result, or the same fault, and in related
states. -/
def Matches (R : σ → τ → Prop) (a : Action σ α) (b : Action τ α) : Prop :=
  ∀ s t, R s t → (a.perform s).1 = (b.perform t).1 ∧ R (a.perform s).2 (b.perform t).2

theorem Matches.bind {R : σ → τ → Prop} {a : Action σ α} {b : Action τ α} {f : α → Action σ β}
    {g : α → Action τ β} (h : Matches R a b) (hfg : ∀ x, Matches R (f x) (g x)) :
    Matches R (a >>= f) (b >>= g) := by
  intro s t hst
  obtain ⟨hresult, hstate⟩ := h s t hst
  rw [perform_bind, perform_bind]
  rcases hs : a.perform s with ⟨fault | x, s'⟩ <;> rcases ht : b.perform t with ⟨fault' | y, t'⟩ <;>
    rw [hs, ht] at hresult hstate <;> cases hresult
  · exact ⟨rfl, hstate⟩
  · exact hfg x s' t' hstate

theorem Matches.pure (R : σ → τ → Prop) (x : α) :
    Matches R (Pure.pure x : Action σ α) (Pure.pure x : Action τ α) := fun _ _ h => ⟨rfl, h⟩

theorem Matches.fail (R : σ → τ → Prop) (e : Failure) :
    Matches R (Action.fail e : Action σ α) (Action.fail e : Action τ α) := fun _ _ h => ⟨rfl, h⟩

theorem Matches.ofResult (R : σ → τ → Prop) (x : Except Fault α) :
    Matches R (Action.ofResult x : Action σ α) (Action.ofResult x : Action τ α) := by
  intro s t h
  rw [perform_ofResult, perform_ofResult]
  exact ⟨rfl, h⟩

end AliasGate.Action
