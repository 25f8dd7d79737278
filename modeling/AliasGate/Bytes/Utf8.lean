import AliasGate.Text.CodePoint

/-!
# UTF-8

Encoding of texts, and a reading of arbitrary bytes that marks each ill-formed part. An ill-formed
part is as long as some character could still have begun that way, so that the byte which rules
the character out is read afresh.
-/

namespace AliasGate

/-- Bytes in order. -/
abbrev Bytes := List UInt8

namespace Utf8

/-- The bytes of a text. -/
def encode (s : Text) : Bytes := s.flatMap String.utf8EncodeChar

/-- A character begun: how many bytes it still owes, which values the next of them may have, and
the number collected so far. -/
structure Pending where
  owed : Nat
  low : UInt8
  high : UInt8
  value : Nat

/-- What a first byte begins. Surrogates are numbers of three bytes that well-formed text lacks. -/
def begin? (surrogates : Bool) (b : UInt8) : Option Pending :=
  if b < 0xC2 then none
  else if b < 0xE0 then some ⟨1, 0x80, 0xBF, b.toNat - 0xC0⟩
  else if b = 0xE0 then some ⟨2, 0xA0, 0xBF, 0⟩
  else if b = 0xED then some ⟨2, 0x80, if surrogates then 0xBF else 0x9F, 0xD⟩
  else if b < 0xF0 then some ⟨2, 0x80, 0xBF, b.toNat - 0xE0⟩
  else if b = 0xF0 then some ⟨3, 0x90, 0xBF, 0⟩
  else if b < 0xF4 then some ⟨3, 0x80, 0xBF, b.toNat - 0xF0⟩
  else if b = 0xF4 then some ⟨3, 0x80, 0x8F, 4⟩
  else none

/-- A byte with nothing owed: the number it completes or the fault it is, and what it begins. -/
def stepFresh (surrogates : Bool) (b : UInt8) : List (Option Nat) × Option Pending :=
  if b < 0x80 then ([some b.toNat], none)
  else
    match begin? surrogates b with
    | some p => ([], some p)
    | none => ([none], none)

/-- A byte: what it completes, and what is owed after it. -/
def step (surrogates : Bool) : Option Pending → UInt8 → List (Option Nat) × Option Pending
  | none, b => stepFresh surrogates b
  | some p, b =>
    if p.low ≤ b ∧ b ≤ p.high then
      let value := p.value * 64 + (b.toNat - 0x80)
      if p.owed ≤ 1 then ([some value], none)
      else ([], some ⟨p.owed - 1, 0x80, 0xBF, value⟩)
    else
      let (found, pending) := stepFresh surrogates b
      (none :: found, pending)

/-- The numbers of the code points, with `none` for each ill-formed part. -/
def scanFrom (surrogates : Bool) : Option Pending → Bytes → List (Option Nat)
  | none, [] => []
  | some _, [] => [none]
  | state, b :: s =>
    (step surrogates state b).1 ++ scanFrom surrogates (step surrogates state b).2 s

/-- The character that stands for an ill-formed part. -/
def replacement : Char := Char.ofNat 0xFFFD

/-- The text that the bytes encode, with a replacement character for each ill-formed part. -/
def decodeLossy (s : Bytes) : Text :=
  (scanFrom false none s).map fun n => (n.map Char.ofNat).getD replacement

/-- The code points that the bytes encode, encoded surrogates included, if no part is ill-formed. -/
def decodeWide? (s : Bytes) : Option WideText :=
  (scanFrom true none s).mapM fun n => n.bind CodePoint.ofNat?

end Utf8

end AliasGate
