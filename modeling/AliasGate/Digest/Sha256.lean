import AliasGate.Bytes.Utf8

/-!
# SHA-256 and HMAC

The hash function of FIPS 180-4 on bytes: padding to blocks of sixty-four, the message schedule,
sixty-four rounds a block, and the chaining state written big-endian. The keyed digest of RFC 2104
mixes the key, hashed first if it is longer than a block and padded with zeros to a block, into an
inner and an outer hash.
-/

namespace AliasGate.Sha256

/-- The chaining state. -/
structure State where
  a : UInt32
  b : UInt32
  c : UInt32
  d : UInt32
  e : UInt32
  f : UInt32
  g : UInt32
  h : UInt32

/-- The state before the first block. -/
def State.initial : State :=
  ⟨0x6a09e667, 0xbb67ae85, 0x3c6ef372, 0xa54ff53a, 0x510e527f, 0x9b05688c, 0x1f83d9ab, 0x5be0cd19⟩

/-- Wordwise sum. -/
def State.add (s t : State) : State :=
  ⟨s.a + t.a, s.b + t.b, s.c + t.c, s.d + t.d, s.e + t.e, s.f + t.f, s.g + t.g, s.h + t.h⟩

/-- The round constants. -/
def constants : List UInt32 :=
  [
    0x428a2f98, 0x71374491, 0xb5c0fbcf, 0xe9b5dba5, 0x3956c25b, 0x59f111f1, 0x923f82a4, 0xab1c5ed5,
    0xd807aa98, 0x12835b01, 0x243185be, 0x550c7dc3, 0x72be5d74, 0x80deb1fe, 0x9bdc06a7, 0xc19bf174,
    0xe49b69c1, 0xefbe4786, 0x0fc19dc6, 0x240ca1cc, 0x2de92c6f, 0x4a7484aa, 0x5cb0a9dc, 0x76f988da,
    0x983e5152, 0xa831c66d, 0xb00327c8, 0xbf597fc7, 0xc6e00bf3, 0xd5a79147, 0x06ca6351, 0x14292967,
    0x27b70a85, 0x2e1b2138, 0x4d2c6dfc, 0x53380d13, 0x650a7354, 0x766a0abb, 0x81c2c92e, 0x92722c85,
    0xa2bfe8a1, 0xa81a664b, 0xc24b8b70, 0xc76c51a3, 0xd192e819, 0xd6990624, 0xf40e3585, 0x106aa070,
    0x19a4c116, 0x1e376c08, 0x2748774c, 0x34b0bcb5, 0x391c0cb3, 0x4ed8aa4a, 0x5b9cca4f, 0x682e6ff3,
    0x748f82ee, 0x78a5636f, 0x84c87814, 0x8cc70208, 0x90befffa, 0xa4506ceb, 0xbef9a3f7, 0xc67178f2
  ]

/-- Rotation to the right by less than a word. -/
def rotate (n x : UInt32) : UInt32 := (x >>> n) ||| (x <<< (32 - n))

/-- The words of a block, big-endian. -/
def words : Bytes → Array UInt32
  | a :: b :: c :: d :: s =>
    #[(a.toUInt32 <<< 24) ||| (b.toUInt32 <<< 16) ||| (c.toUInt32 <<< 8) ||| d.toUInt32] ++ words s
  | _ => #[]

/-- The schedule with one word more, made from four words at fixed distances from its end. -/
def extend (w : Array UInt32) : Array UInt32 :=
  let back (k : Nat) : UInt32 := w.getD (w.size - k) 0
  let s0 := rotate 7 (back 15) ^^^ rotate 18 (back 15) ^^^ (back 15 >>> 3)
  let s1 := rotate 17 (back 2) ^^^ rotate 19 (back 2) ^^^ (back 2 >>> 10)
  w.push (back 16 + s0 + back 7 + s1)

/-- The sixty-four words of a block's schedule. -/
def schedule (block : Bytes) : Array UInt32 := Nat.repeat extend 48 (words block)

/-- One round, with its constant and its schedule word. -/
def round (s : State) (k w : UInt32) : State :=
  let s1 := rotate 6 s.e ^^^ rotate 11 s.e ^^^ rotate 25 s.e
  let choice := (s.e &&& s.f) ^^^ ((~~~s.e) &&& s.g)
  let t1 := s.h + s1 + choice + k + w
  let s0 := rotate 2 s.a ^^^ rotate 13 s.a ^^^ rotate 22 s.a
  let majority := (s.a &&& s.b) ^^^ (s.a &&& s.c) ^^^ (s.b &&& s.c)
  ⟨t1 + (s0 + majority), s.a, s.b, s.c, s.d + t1, s.e, s.f, s.g⟩

/-- The chaining state after a block. -/
def compress (s : State) (block : Bytes) : State :=
  s.add ((constants.zip (schedule block).toList).foldl (fun t kw => round t kw.1 kw.2) s)

/-- The bytes of a number, big-endian. -/
def bigEndian (width n : Nat) : Bytes :=
  (List.range width).map fun i => UInt8.ofNat (n >>> (8 * (width - 1 - i)))

/-- The message, a bit set, as few zeros as complete a block, and the length in bits. -/
def pad (message : Bytes) : Bytes :=
  message ++ 0x80 :: List.replicate ((119 - message.length % 64) % 64) 0 ++
    bigEndian 8 (8 * message.length)

/-- The blocks of a padded message. The number of blocks still to read bounds the walk. -/
def absorb : Nat → State → Bytes → State
  | 0, s, _ => s
  | n + 1, s, message => absorb n (compress s (message.take 64)) (message.drop 64)

/-- The bytes of a state. -/
def State.toBytes (s : State) : Bytes :=
  [s.a, s.b, s.c, s.d, s.e, s.f, s.g, s.h].flatMap fun w => bigEndian 4 w.toNat

/-- The digest of a message: thirty-two bytes. -/
def digest (message : Bytes) : Bytes :=
  let padded := pad message
  (absorb (padded.length / 64) .initial padded).toBytes

end AliasGate.Sha256

namespace AliasGate.Hmac

/-- A key as a whole block. -/
def keyBlock (key : Bytes) : Bytes :=
  let k := if key.length ≤ 64 then key else Sha256.digest key
  k ++ List.replicate (64 - k.length) 0

/-- The keyed digest of a message. -/
def digest (key message : Bytes) : Bytes :=
  let block := keyBlock key
  Sha256.digest
    (block.map (· ^^^ 0x5C) ++ Sha256.digest (block.map (· ^^^ 0x36) ++ message))

/-- Lower-case hexadecimal digits of bytes. -/
def hexText (s : Bytes) : Text := s.flatMap fun b => Text.hex 2 b.toNat

/-- The keyed digest of a text under a text, as lower-case hexadecimal digits. -/
def signature (key data : Text) : Text := hexText (digest (Utf8.encode key) (Utf8.encode data))

end AliasGate.Hmac
