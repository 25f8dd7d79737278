import AliasGate.Bytes.Utf8

/-!
# Percent encoding

Encoding leaves only the unreserved characters of RFC 3986 as they are. Decoding works on runs of
ASCII characters, so that a character beyond ASCII ends the bytes collected so far; escapes that
are cut short or hold no hexadecimal digits stay as they are.
-/

namespace AliasGate.Percent

/-- A character that encoding leaves alone. -/
def isUnreserved (c : Char) : Bool :=
  ('a' ≤ c && c ≤ 'z') || ('A' ≤ c && c ≤ 'Z') || ('0' ≤ c && c ≤ '9') ||
    c == '-' || c == '.' || c == '_' || c == '~'

/-- A byte as an escape with upper-case digits. -/
def escape (b : UInt8) : Text := '%' :: (Text.hex 2 b.toNat).map Char.toUpper

/-- A character in encoded form. -/
def encodeChar (c : Char) : Text :=
  if isUnreserved c then [c] else (String.utf8EncodeChar c).flatMap escape

/-- The encoded form of a text. -/
def encode (s : Text) : Text := s.flatMap encodeChar

/-- The bytes that a run of ASCII characters stands for, escapes resolved. -/
def bytes : Text → Bytes
  | '%' :: a :: b :: s =>
    match Text.hexValue? a, Text.hexValue? b with
    | some x, some y => UInt8.ofNat (x * 16 + y) :: bytes s
    | _, _ => UInt8.ofNat '%'.toNat :: bytes (a :: b :: s)
  | c :: s => UInt8.ofNat c.toNat :: bytes s
  | [] => []

/-- An ASCII character. -/
def isAscii (c : Char) : Bool := c.toNat < 0x80

/-- Decodes each longest run of ASCII characters. The first list collects the run in progress, last
character first. -/
def decodeFrom : Text → Text → Text
  | run, [] => Utf8.decodeLossy (bytes run.reverse)
  | run, c :: s =>
    if isAscii c then decodeFrom (c :: run) s
    else Utf8.decodeLossy (bytes run.reverse) ++ c :: decodeFrom [] s

/-- The text that an encoded text stands for. -/
def decode (s : Text) : Text := decodeFrom [] s

/-- Decoding in form data, where a plus sign stands for a space. -/
def decodeForm (s : Text) : Text := decode (s.map fun c => if c = '+' then ' ' else c)

end AliasGate.Percent
