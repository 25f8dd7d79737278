/-!
# Double-precision numbers

Binary numbers of sixty-four bits as data: a sign and a magnitude, where the magnitudes of finite
numbers are counted upwards from zero in the order of their values. Decimals are rounded to the
nearest number, ties to the even magnitude, in exact arithmetic.
-/

namespace AliasGate

/-- The count of magnitudes in a binade. -/
def Double.binade : Nat := Nat.pow 2 52

/-- The count of finite magnitudes. -/
def Double.finiteCount : Nat := 2047 * Double.binade

/-- How many times the smallest positive number goes into one. -/
def Double.grain : Nat := Nat.pow 2 1074

/-- A double-precision number. A finite one has a sign and the place of its magnitude in ascending
order; place 1 is the smallest positive number. -/
inductive Double where
  | nan
  | infinite (negative : Bool)
  | finite (negative : Bool) (magnitude : Fin Double.finiteCount)
  deriving DecidableEq

namespace Double

/-- Zero with a sign. -/
def ofZero (negative : Bool) : Double := .finite negative ⟨0, by decide⟩

/-- The significand of a magnitude: its value is the significand times a power of two. -/
def significand (magnitude : Nat) : Nat :=
  if magnitude < binade then magnitude else magnitude % binade + binade

/-- The exponent of that power of two, counted from the smallest one. -/
def scale (magnitude : Nat) : Nat := magnitude / binade - 1

/-- A magnitude's value, counted in grains. -/
def grains (magnitude : Nat) : Nat := significand magnitude * Nat.pow 2 (scale magnitude)

/-- The number at a place, or infinity beyond the last place. -/
def ofMagnitude (negative : Bool) (magnitude : Nat) : Double :=
  if h : magnitude < finiteCount then .finite negative ⟨magnitude, h⟩ else .infinite negative

/-- A quotient rounded to the nearest integer, a half to the even one. -/
def roundQuotient (num den : Nat) : Nat :=
  let q := num / den
  let r := num % den
  if 2 * r < den then q
  else if den < 2 * r then q + 1
  else q + q % 2

/-- The scale at which a positive quotient, counted in grains, has a significand of 53 bits or
fewer. -/
def scaleOf (num den : Nat) : Nat := (num * grain / den).log2 - 52

/-- The place of the magnitude nearest to a quotient. A significand that rounds up to 2^53 moves on
to the next binade by itself. -/
def magnitudeOf (num den : Nat) : Nat :=
  let s := scaleOf num den
  s * binade + roundQuotient (num * grain) (den * Nat.pow 2 s)

/-- The number of decimal digits. -/
def digitCount (n : Nat) : Nat := (Nat.toDigits 10 n).length

/-- The number nearest to `digits · 10^exponent`. Exponents far outside the range are decided by the
position of the first digit alone. -/
def ofDecimal (negative : Bool) (digits : Nat) (exponent : Int) : Double :=
  let position := exponent + digitCount digits
  if digits = 0 ∨ position < -330 then ofZero negative
  else if 310 < position then .infinite negative
  else ofMagnitude negative
    (magnitudeOf (digits * Nat.pow 10 exponent.toNat) (Nat.pow 10 (-exponent).toNat))

/-- The integer that a finite number is, if it is one. -/
def toInt? : Double → Option Int
  | .finite negative magnitude =>
    let n : Int := grains magnitude / grain
    if grains magnitude % grain = 0 then some (if negative then -n else n) else none
  | _ => none

/-- The value of a number is the given integer. -/
def isInteger (x : Double) (n : Int) : Bool := x.toInt? == some n

/-- Equality of values: both zeros are one value. Not-a-number counts as equal to itself. -/
def agrees : Double → Double → Bool
  | .finite a m, .finite b n => m == n && (a == b || m.val == 0)
  | x, y => x == y

end Double

end AliasGate
