import AliasGate.Bytes.Utf8

/-!
# UTF-16 and UTF-32

Readings of bytes as units of two or four bytes in either order. Surrogates without a partner are
kept as code points; a unit that is cut short or too large makes the bytes unreadable.
-/

namespace AliasGate

/-- Which byte of a unit comes first. -/
inductive ByteOrder where
  | big
  | little
  deriving DecidableEq

namespace Utf16

/-- The units of two bytes, if no byte is left over. -/
def units? (order : ByteOrder) : Bytes → Option (List Nat)
  | [] => some []
  | [_] => none
  | a :: b :: s =>
    let unit :=
      match order with
      | .big => a.toNat * 256 + b.toNat
      | .little => b.toNat * 256 + a.toNat
    (units? order s).map (unit :: ·)

/-- Joins each high surrogate with a low one right after it. -/
def pairs : List Nat → List Nat
  | [] => []
  | [u] => [u]
  | u :: v :: s =>
    if 0xD800 ≤ u ∧ u < 0xDC00 ∧ 0xDC00 ≤ v ∧ v < 0xE000 then
      (0x10000 + (u - 0xD800) * 0x400 + (v - 0xDC00)) :: pairs s
    else u :: pairs (v :: s)

/-- The code points that the bytes encode. -/
def decodeWide? (order : ByteOrder) (s : Bytes) : Option WideText :=
  (units? order s).bind fun us => (pairs us).mapM CodePoint.ofNat?

end Utf16

namespace Utf32

/-- The units of four bytes, if no byte is left over. -/
def units? (order : ByteOrder) : Bytes → Option (List Nat)
  | [] => some []
  | a :: b :: c :: d :: s =>
    let unit :=
      match order with
      | .big => ((a.toNat * 256 + b.toNat) * 256 + c.toNat) * 256 + d.toNat
      | .little => ((d.toNat * 256 + c.toNat) * 256 + b.toNat) * 256 + a.toNat
    (units? order s).map (unit :: ·)
  | _ => none

/-- The code points that the bytes encode. -/
def decodeWide? (order : ByteOrder) (s : Bytes) : Option WideText :=
  (units? order s).bind fun us => us.mapM CodePoint.ofNat?

end Utf32

end AliasGate
