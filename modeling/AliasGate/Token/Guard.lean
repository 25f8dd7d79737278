import AliasGate.Event.Basic
import AliasGate.Http.Response
import AliasGate.Token.Candidate
import AliasGate.Token.Signer
import AliasGate.Transformation.Basic

/-!
# The guard

The guard looks at each request for a protected resource and finds whether it may pass: because it
came by a public short URL, because its transformations are exempt, or because it carries a token
that signs one of the forms of its URL.

* `Guard.judge` is the verdict on an event.
* `Verdict.failure?` is the answer where the verdict is against the request.
-/

namespace AliasGate

/-- What the guard finds about a request. -/
inductive Verdict where
  | bypassed
  | exempt
  | missing
  | unknownKey
  | verified
  | incorrect
  deriving DecidableEq, Repr

namespace Verdict

/-- All verdicts. -/
def all : List Verdict := [bypassed, exempt, missing, unknownKey, verified, incorrect]

/-- The name under which a verdict is counted. -/
def name : Verdict → Text
  | bypassed => "bypassed".toList
  | exempt => "exempt".toList
  | missing => "missing".toList
  | unknownKey => "unknown_key".toList
  | verified => "verified".toList
  | incorrect => "incorrect".toList

/-- The failure of a request that may not pass. -/
def failure? : Verdict → Option Failure
  | missing => some .missingToken
  | unknownKey => some .unknownPublicKey
  | incorrect => some .incorrectToken
  | _ => none

end Verdict

/-- A guard: how tokens are made, who is exempt, and which events it listens to. -/
structure Guard where
  signer : Signer
  filter : Transformation.Filter
  events : List Text
  priority : Int

namespace Guard

/-- The operations that are protected, by the names of their events. -/
def guardedEvents : List Text :=
  ["user.get".toList, "user.head".toList, "shorturls.post".toList, "shorturls.delete".toList,
    "shorturl.get".toList, "shorturl.head".toList, "shorturl.delete".toList,
    "globalshorturl.get".toList, "globalshorturl.head".toList]

/-- The priority of a guard unless it is given another. -/
def defaultPriority : Int := 100

/-- A guard with what was offered to it as a signer. -/
def make (offered : Option Signer) (filter : Transformation.Filter) (events : List Text)
    (priority : Int) : Except Failure Guard :=
  match offered with
  | none => .error .invalidTokenSigner
  | some signer => .ok ⟨signer, filter, events, priority⟩

/-- The events before each protected operation, with the guard's priority. -/
def subscriptions (g : Guard) : Keyed Text Int :=
  Keyed.ofPairs (g.events.map fun event => (event ++ ".pre".toList, g.priority))

/-- The first argument key that the query has, with its value. -/
def token? (g : Guard) (r : Http.Request) : Option (Text × Text) :=
  g.signer.keys.findSome? fun key => (r.argument? key).map fun token => (key, token)

/-- One of the URLs has the token as its signature. -/
def signs (signer : Signer) (key privateKey token : Text) : List Text → Except Failure Bool
  | [] => .ok false
  | url :: urls => do
    if (← signer.sign key url privateKey) = token then .ok true
    else signs signer key privateKey token urls

/-- The verdict on a token found in the query. -/
def judgeToken (g : Guard) (e : Event) (key token : Text) : Except Failure Verdict :=
  match e.keys.privateKey? e.request.publicKey with
  | none => .ok .unknownKey
  | some privateKey => do
    if ← signs g.signer key privateKey token (Candidate.urls e.request.url e.protocol key) then
      .ok .verified
    else .ok .incorrect

/-- The verdict on an event, given the response as it stands. There is none if a signature cannot be
made. -/
def judge (g : Guard) (e : Event) (response : Http.Response) : Except Failure Verdict :=
  if response.hasHeader Http.Response.shortUrlHeader then .ok .bypassed
  else if g.filter.isExempt e.request.transformationNames then .ok .exempt
  else
    match g.token? e.request with
    | none => .ok .missing
    | some (key, token) => g.judgeToken e key token

end Guard

end AliasGate
