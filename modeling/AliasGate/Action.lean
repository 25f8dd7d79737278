import AliasGate.Failure

/-!
# Actions

An action reads and changes a state and ends with a result or a fault. What it changed before a
fault stays changed: undoing is the business of whoever needs it undone.
-/

namespace AliasGate

/-- An action on states `σ` with results `α`. -/
abbrev Action (σ α : Type) := ExceptT Fault (StateM σ) α

namespace Action

variable {σ τ α : Type}

/-- Result and final state from an initial state. -/
def perform (a : Action σ α) (s : σ) : Except Fault α × σ := a.run.run s

/-- The action that an initial state determines. -/
def ofFunction (f : σ → Except Fault α × σ) : Action σ α := ExceptT.mk f

/-- Ends with a failure. -/
def fail (f : Failure) : Action σ α := throw (.failure f)

/-- Ends with a defect. -/
def breakOff (d : Defect) : Action σ α := throw (.defect d)

/-- Goes on with the value, or ends with the fault. -/
def ofResult : Except Fault α → Action σ α
  | .ok a => pure a
  | .error fault => throw fault

/-- Goes on with the value, or ends with the failure. -/
def ofExcept : Except Failure α → Action σ α
  | .ok a => pure a
  | .error f => fail f

/-- An action on a part of a larger state. -/
def onPart (part : σ → τ) (replace : σ → τ → σ) (a : Action τ α) : Action σ α :=
  ofFunction fun s =>
    let (result, t) := a.perform (part s)
    (result, replace s t)

end Action

end AliasGate
