import AliasGate.Number.Double
import AliasGate.Text.Basic

/-!
# Shortest decimals

The decimal of fewest digits that is read back as a given double-precision number, and among those
the nearest, the even one at a tie. For each count of digits only the two neighbours of the number
on that decimal grid can be it.

Such a decimal is written positionally with a point, or with one digit before the point and an
exponent. Where one ends and the other begins, and how an exponent looks, differs between the texts
that the library writes (`NumberLayout`).
-/

namespace AliasGate

/-- A decimal: a whole number times a power of ten. -/
structure Decimal where
  digits : Nat
  exponent : Int
  deriving DecidableEq, Repr

namespace Decimal

/-- The decimal without zeros at its end. Each step divides by ten, so `fuel` digits are enough. -/
def normalizeFrom : Nat → Decimal → Decimal
  | 0, d => d
  | fuel + 1, d =>
    if d.digits ≠ 0 ∧ d.digits % 10 = 0 then normalizeFrom fuel ⟨d.digits / 10, d.exponent + 1⟩
    else d

/-- The decimal without zeros at its end. -/
def normalize (d : Decimal) : Decimal := normalizeFrom (Double.digitCount d.digits) d

end Decimal

namespace Double

/-- The position of the first digit of a positive magnitude: the value is below ten to this power
and not below ten to the power before. -/
def position (magnitude : Nat) : Int :=
  (digitCount (grains magnitude * Nat.pow 10 400 / grain) : Int) - 400

/-- The neighbours of a magnitude among the multiples of a power of ten, the nearer one first; of
two equally near ones the even one is first. -/
def neighbours (magnitude : Nat) (exponent : Int) : List Decimal :=
  let num := grains magnitude * Nat.pow 10 (-exponent).toNat
  let den := grain * Nat.pow 10 exponent.toNat
  let below := num / den
  let rest := 2 * (num % den)
  if rest < den ∨ (rest = den ∧ below % 2 = 0) then [⟨below, exponent⟩, ⟨below + 1, exponent⟩]
  else [⟨below + 1, exponent⟩, ⟨below, exponent⟩]

/-- A decimal is read as the number with this magnitude. -/
def readsAs (magnitude : Nat) (d : Decimal) : Bool :=
  ofDecimal false d.digits d.exponent == ofMagnitude false magnitude

/-- The shortest decimal of a positive magnitude; seventeen digits always suffice. -/
def shortest (magnitude : Nat) : Decimal :=
  let p := position magnitude
  let candidates :=
    (List.range 17).flatMap fun (n : Nat) => neighbours magnitude (p - ((n + 1 : Nat) : Int))
  ((candidates.find? (readsAs magnitude)).getD ⟨0, 0⟩).normalize

end Double

/-! ## Layout -/

/-- The decisions of a number format. The position of a number is the power of ten that its value
is just below. -/
structure NumberLayout where
  /-- The smallest position that is written without an exponent. -/
  lowest : Int
  /-- The greatest position that is written without an exponent. -/
  highest : Int
  /-- The least number of digits of an exponent. -/
  exponentWidth : Nat

namespace NumberLayout

/-- Zeros in front up to a width. -/
def padded (width : Nat) (s : Text) : Text := List.replicate (width - s.length) '0' ++ s

/-- An exponent with its mark and its sign. -/
def exponent (l : NumberLayout) (e : Int) : Text :=
  'e' :: (if e < 0 then '-' else '+') :: padded l.exponentWidth (Text.ofNat e.natAbs)

/-- A positive decimal. -/
def decimal (l : NumberLayout) (d : Decimal) : Text :=
  let ds := Text.ofNat d.digits
  let position := d.exponent + ds.length
  if position < l.lowest ∨ l.highest < position then
    match ds with
    | [] => []
    | [c] => c :: l.exponent (position - 1)
    | c :: rest => c :: '.' :: rest ++ l.exponent (position - 1)
  else if position ≤ 0 then '0' :: '.' :: List.replicate (-position).toNat '0' ++ ds
  else if 0 ≤ d.exponent then ds ++ List.replicate d.exponent.toNat '0' ++ ['.', '0']
  else ds.take position.toNat ++ '.' :: ds.drop position.toNat

/-- A finite number. -/
def finite (l : NumberLayout) (negative : Bool) (magnitude : Nat) : Text :=
  (if negative then ['-'] else []) ++
    if magnitude = 0 then ['0', '.', '0'] else l.decimal (Double.shortest magnitude)

/-- Answers write numbers from 10^-4 up to 10^16 positionally; an exponent has at least two
digits. -/
def answer : NumberLayout := ⟨-3, 16, 2⟩

/-- Stored texts write numbers from 10^-5 up to 10^16 positionally; an exponent has as few digits as
it can have. -/
def stored : NumberLayout := ⟨-4, 16, 1⟩

end NumberLayout

end AliasGate
