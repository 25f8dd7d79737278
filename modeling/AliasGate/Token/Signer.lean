import AliasGate.Digest.Sha256
import AliasGate.Failure
import AliasGate.Keyed
import AliasGate.Text.Case

/-!
# Signers

A signer computes the signature of a URL and says under which query arguments it expects tokens.
The keyed digest is the usual one; several signers can be combined, each under its own argument.
-/

namespace AliasGate

/-- How a signer came about. -/
inductive Signer.Kind where
  | hmac
  | choice
  | custom
  deriving DecidableEq, Repr

/-- The argument keys of tokens, in the order in which they are looked for, and the signature of
data under a private key for the argument key that a token came in. -/
structure Signer where
  kind : Signer.Kind
  keys : List Text
  sign : (argument data privateKey : Text) → Except Failure Text

namespace Signer

/-- The argument key of tokens unless settings say otherwise. -/
def defaultKey : Text := "accessToken".toList

/-- The given argument keys or else the default ones; at least one is needed. -/
def chooseKeys (given default : List Text) : Except Failure (List Text) :=
  match given, default with
  | [], [] => .error .noArgumentKey
  | [], keys => .ok keys
  | keys, _ => .ok keys

/-- The keyed digest, in lower-case hexadecimal digits, under the given argument keys. -/
def hmacOn (keys : List Text) : Signer :=
  ⟨.hmac, keys, fun _ data privateKey => .ok (Hmac.signature privateKey data)⟩

/-- The keyed digest under the given argument keys, or under the default one if none is given. -/
def hmac (keys : List Text) : Signer :=
  hmacOn (match keys with
    | [] => [defaultKey]
    | keys => keys)

/-- One signature for everything. It has no default argument key. -/
def constant (value : Text) (keys : List Text) : Except Failure Signer :=
  (chooseKeys keys []).map fun keys => ⟨.custom, keys, fun _ _ _ => .ok value⟩

/-- Picks the signer by the argument key that the token came in. -/
def signBy (signers : Keyed Text Signer) (argument data privateKey : Text) : Except Failure Text :=
  match signers.get? argument with
  | some signer => signer.sign argument data privateKey
  | none => .error (.noSignerFor argument)

/-- Several signers, each under its argument key. An entry without a signer is refused. -/
def choice (entries : Keyed Text (Option Signer)) : Except Failure Signer :=
  match entries with
  | [] => .error .noSigners
  | entries => do
    let signers ← entries.mapM fun (key, signer) =>
      match signer with
      | some signer => .ok (key, signer)
      | none => .error (.invalidSigner key)
    pure ⟨.choice, signers.map (·.1), signBy signers⟩

/-- The algorithms that settings can name. -/
def algorithms : List Text := ["sha256".toList]

/-- A signer for one configured entry: an argument key and an algorithm in any letter case. -/
def ofEntry (entry : Text × Text) : Except Failure (Text × Signer) :=
  if Text.lower entry.2 ∈ algorithms then .ok (entry.1, hmac [entry.1])
  else .error (.unknownAlgorithm entry.2 entry.1)

/-- The signer that settings describe: without entries the keyed digest on the default keys, with
one entry a signer on its own, with several a choice in the order of the entries. -/
def configured (entries : Keyed Text Text) (defaultKeys : List Text) : Except Failure Signer :=
  match entries with
  | [] => .ok (hmac defaultKeys)
  | entries => do
    match ← entries.mapM ofEntry with
    | [(_, signer)] => pure signer
    | signers => choice (signers.map fun (key, signer) => (key, some signer))

end Signer

end AliasGate
