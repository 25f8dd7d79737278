/-!
# Text

A text is a list of characters. Here are the readings of a text that the rest of the library is
built from: splitting at a separator, cutting at the first one, stripping from the end, the written
form of an integer, and the characters that count as white space or as digits.

Splitting and cutting work on lists of any type, because the text of a JSON string may hold code
points that are no characters.
-/

namespace AliasGate

/-- A text: characters in order. -/
abbrev Text := List Char

namespace Text

/-- Texts are equal if they compare as equal. -/
instance lawful : LawfulBEq Text := inferInstance

variable {α : Type} [DecidableEq α]

/-! ## Separators -/

/-- The fields between separators: `n` separators give `n + 1` fields, some perhaps empty. -/
def fields (sep : α) : List α → List (List α)
  | [] => [[]]
  | c :: s =>
    if c = sep then [] :: fields sep s
    else
      match fields sep s with
      | [] => [[c]]
      | f :: fs => (c :: f) :: fs

/-- What stands before the first separator, and what follows it if there is one. -/
def cut (sep : α) : List α → List α × Option (List α)
  | [] => ([], none)
  | c :: s =>
    if c = sep then ([], some s)
    else ((c :: (cut sep s).1), (cut sep s).2)

/-- The fields in a row with a separator between any two. -/
def joined (sep : List α) (fs : List (List α)) : List α := sep.intercalate fs

/-- What follows a given beginning, if the text has it. -/
def after? : List α → List α → Option (List α)
  | [], s => some s
  | _ :: _, [] => none
  | b :: bs, c :: s => if b = c then after? bs s else none

/-- What stands before a given ending, if the text has it. -/
def before? (ending s : List α) : Option (List α) :=
  (after? ending.reverse s.reverse).map List.reverse

/-- The text without its longest ending of elements that satisfy `p`. -/
def dropEndWhile (p : α → Bool) (s : List α) : List α := (s.reverse.dropWhile p).reverse

/-- The text without its longest beginning and ending of elements that satisfy `p`. -/
def trim (p : α → Bool) (s : List α) : List α := dropEndWhile p (s.dropWhile p)

/-- A rule for whole texts that also looks past one final line feed: the text itself comes first,
then the text without that line feed. -/
def orBeforeNewline {β : Type} (rule : Text → Option β) (s : Text) : Option β :=
  match rule s with
  | some b => some b
  | none => (before? ['\n'] s).bind rule

/-! ## Integers -/

/-- Decimal digits, no leading zero. -/
def ofNat (n : Nat) : Text := Nat.toDigits 10 n

/-- Decimal digits after a sign if the number is negative. -/
def ofInt : Int → Text
  | .ofNat n => ofNat n
  | .negSucc n => '-' :: ofNat (n + 1)

/-- Lower-case hexadecimal digits, with zeros in front up to the width. -/
def hex (width n : Nat) : Text :=
  let digits := Nat.toDigits 16 n
  List.replicate (width - digits.length) '0' ++ digits

/-- The value of a hexadecimal digit in either case. -/
def hexValue? (c : Char) : Option Nat :=
  if '0' ≤ c ∧ c ≤ '9' then some (c.toNat - '0'.toNat)
  else if 'a' ≤ c ∧ c ≤ 'f' then some (c.toNat - 'a'.toNat + 10)
  else if 'A' ≤ c ∧ c ≤ 'F' then some (c.toNat - 'A'.toNat + 10)
  else none

/-! ## Classes of characters -/

/-- A character with the Unicode property `White_Space`. -/
def isBlank (c : Char) : Bool :=
  let n := c.toNat
  (0x09 ≤ n && n ≤ 0x0D) || n == 0x20 || n == 0x85 || n == 0xA0 || n == 0x1680 ||
    (0x2000 ≤ n && n ≤ 0x200A) || n == 0x2028 || n == 0x2029 || n == 0x202F || n == 0x205F ||
    n == 0x3000

/-- White space or one of the four information separators of ASCII. -/
def isBlankOrSeparator (c : Char) : Bool :=
  isBlank c || (0x1C ≤ c.toNat && c.toNat ≤ 0x1F)

/-- The code point of the zero of each block of ten decimal digits (general category `Nd`). The
digits of a block have consecutive code points. -/
def decimalZeros : List Nat :=
  [
    0x30, 0x660, 0x6f0, 0x7c0, 0x966, 0x9e6, 0xa66, 0xae6, 0xb66,
    0xbe6, 0xc66, 0xce6, 0xd66, 0xde6, 0xe50, 0xed0, 0xf20, 0x1040,
    0x1090, 0x17e0, 0x1810, 0x1946, 0x19d0, 0x1a80, 0x1a90, 0x1b50, 0x1bb0,
    0x1c40, 0x1c50, 0xa620, 0xa8d0, 0xa900, 0xa9d0, 0xa9f0, 0xaa50, 0xabf0,
    0xff10, 0x104a0, 0x10d30, 0x11066, 0x110f0, 0x11136, 0x111d0, 0x112f0, 0x11450,
    0x114d0, 0x11650, 0x116c0, 0x11730, 0x118e0, 0x11950, 0x11c50, 0x11d50, 0x11da0,
    0x16a60, 0x16ac0, 0x16b50, 0x1d7ce, 0x1d7d8, 0x1d7e2, 0x1d7ec, 0x1d7f6, 0x1e140,
    0x1e2f0, 0x1e950, 0x1fbf0
  ]

/-- A decimal digit of any script. -/
def isDecimalDigit (c : Char) : Bool :=
  decimalZeros.any fun first => first ≤ c.toNat && c.toNat < first + 10

/-- A decimal digit of ASCII. -/
def isAsciiDigit (c : Char) : Bool := '0' ≤ c && c ≤ '9'

end Text

end AliasGate
