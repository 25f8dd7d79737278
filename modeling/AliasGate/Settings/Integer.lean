import AliasGate.Issue
import AliasGate.Json.Basic
import AliasGate.Text.Basic

/-!
# Integers in settings

Integers are read leniently. In a text, blanks around the number do not matter, a sign may come
first, single underscores may part the digits, and a point with zeros may follow. Underscores among
leading zeros go with the zeros, and a minus may also come right after those.

* `Settings.integerOfText?` reads a text, `Settings.integer` a value.
-/

namespace AliasGate.Settings

/-- The greatest number of digits of an integer. -/
def maxDigits : Nat := 4300

/-- The text before a point that zeros follow up to the end, or the whole text. -/
def dropZeroFraction (s : Text) : Text :=
  match Text.cut '.' s with
  | (whole, some (c :: cs)) => if (c :: cs).all (· == '0') then whole else s
  | _ => s

/-- There are two underscores in a row. -/
def hasDoubleUnderscore : Text → Bool
  | '_' :: '_' :: _ => true
  | _ :: s => hasDoubleUnderscore s
  | [] => false

/-- The text without underscores, unless one ends it or two stand in a row. -/
def dropUnderscores (s : Text) : Text :=
  if s.getLast? = some '_' ∨ hasDoubleUnderscore s = true then s else s.filter (· != '_')

/-- What is left of a text that begins with a zero: what follows the zeros, or the last zero with
the point after it. -/
def dropLeadingZeros (s : Text) : Text :=
  let zeros := s.takeWhile fun c => c == '0' || c == '_'
  match s.drop zeros.length with
  | [] => zeros.getLast?.toList
  | '.' :: rest => zeros.getLast?.toList ++ '.' :: rest
  | rest => rest

/-- The number that ASCII digits write, if there is no zero in front and they are not too many. -/
def natOfDigits? (s : Text) : Option Nat :=
  if s = [] ∨ s.all Text.isAsciiDigit = false ∨ (s.head? = some '0' ∧ s ≠ ['0']) ∨
      maxDigits < s.length then none
  else some (s.foldl (fun n c => n * 10 + (c.toNat - '0'.toNat)) 0)

/-- Digits with underscores between them and perhaps a fraction of zeros. -/
def magnitude? (s : Text) : Option Nat := natOfDigits? (dropUnderscores (dropZeroFraction s))

/-- A number after its sign. A minus after leading zeros is one if there was none before. -/
def afterSign? (negative : Bool) (s : Text) : Option Int :=
  let signed (minus : Bool) (n : Nat) : Int := if minus then -n else n
  match s with
  | [] => none
  | c :: _ =>
    if c = '0' then
      match negative, dropLeadingZeros s with
      | false, '-' :: s => (magnitude? s).map (signed true)
      | _, s => (magnitude? s).map (signed negative)
    else if Text.isAsciiDigit c then (magnitude? s).map (signed negative)
    else none

/-- The integer that a text writes. -/
def integerOfText? (s : Text) : Option Int :=
  match Text.trim Text.isBlank s with
  | '-' :: s => afterSign? true s
  | '+' :: s => afterSign? false s
  | s => afterSign? false s

/-- The integer that a number is. -/
def integerOfNumber (x : Double) : Except Issue.Reason Int :=
  match x, x.toInt? with
  | .finite _ _, some n => if n.natAbs < Nat.pow 2 63 then .ok n else .error .tooLarge
  | .finite _ _, none => .error .fractional
  | _, _ => .error .nonFinite

/-- The integer that a value stands for. Truth values count as one and zero. -/
def integer : Json → Except Issue.Reason Int
  | .int n => .ok n
  | .bool b => .ok (if b then 1 else 0)
  | .number x => integerOfNumber x
  | .str s =>
    match (WideText.toText? s).bind integerOfText? with
    | some n => .ok n
    | none => .error .notInteger
  | _ => .error .notNumber

end AliasGate.Settings
