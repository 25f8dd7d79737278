import AliasGate.Keyed
import AliasGate.Number.Double
import AliasGate.Text.CodePoint

/-!
# JSON values

Values as they are read: whole numbers of any size are kept apart from other numbers, and an object
keeps its members in order.

* `Json.depth` and `Json.height` measure how deep a value nests, which decides where it can be written
  and read. They differ on empty lists and objects.
* `Json.agrees` is the equality of values that differ in the order of members or in the kind of a
  number.
-/

namespace AliasGate

/-- A JSON value. -/
inductive Json where
  | null
  | bool (b : Bool)
  | int (n : Int)
  | number (x : Double)
  | str (s : WideText)
  | arr (elements : List Json)
  | obj (members : List (WideText × Json))

namespace Json

/-- A text as a value. -/
def text (s : Text) : Json := .str (WideText.ofText s)

/-- An object from names and values. -/
def object (members : List (Text × Json)) : Json :=
  .obj (members.map fun m => (WideText.ofText m.1, m.2))

/-! ## Nesting -/

mutual

/-- The greatest number of lists and objects around a value inside this one; if empty ones count, also
around nothing. -/
def levels (countsEmpty : Bool) : Json → Nat
  | .arr elements => levelsElements countsEmpty elements
  | .obj members => levelsMembers countsEmpty members
  | _ => 0

/-- The levels below the elements of a list, the list included. -/
def levelsElements (countsEmpty : Bool) : List Json → Nat
  | [] => countsEmpty.toNat
  | j :: js => max (j.levels countsEmpty + 1) (levelsElements countsEmpty js)

/-- The levels below the members of an object, the object included. -/
def levelsMembers (countsEmpty : Bool) : List (WideText × Json) → Nat
  | [] => countsEmpty.toNat
  | (_, j) :: ms => max (j.levels countsEmpty + 1) (levelsMembers countsEmpty ms)

end

/-- The greatest number of lists and objects around a value inside this one. -/
def depth (j : Json) : Nat := j.levels false

/-- The greatest number of lists and objects one in another. -/
def height (j : Json) : Nat := j.levels true

/-! ## Surrogate pairs -/

mutual

/-- The value with the surrogates in its strings joined in pairs. Names of members that become equal
are one name. -/
def joinPairs : Json → Json
  | .str s => .str (WideText.joinPairs s)
  | .arr elements => .arr (joinPairsElements elements)
  | .obj members => .obj (Keyed.ofPairs (joinPairsMembers members))
  | j => j

/-- The elements with surrogates joined. -/
def joinPairsElements : List Json → List Json
  | [] => []
  | j :: js => j.joinPairs :: joinPairsElements js

/-- The members with surrogates joined, in names too. -/
def joinPairsMembers : List (WideText × Json) → List (WideText × Json)
  | [] => []
  | (k, j) :: ms => (WideText.joinPairs k, j.joinPairs) :: joinPairsMembers ms

end

/-! ## Agreement -/

/-- The whole number that a value counts as: truth values count as one and zero. -/
def whole? : Json → Option Int
  | .bool b => some (if b then 1 else 0)
  | .int n => some n
  | _ => none

/-- Two values that are neither strings, lists nor objects agree: `null` with `null`, and numbers
and truth values by the number they stand for. -/
def agreesScalar (a b : Json) : Bool :=
  match a, b with
  | .null, .null => true
  | .number x, .number y => x.agrees y
  | .number x, b => b.whole?.any fun n => x.isInteger n
  | a, .number y => a.whole?.any fun n => y.isInteger n
  | a, b => a.whole?.any fun m => b.whole? == some m

mutual

/-- Equality up to the order of members and the kind of a number: `1`, `1.0` and `true` agree. -/
def agrees : Json → Json → Bool
  | .str s, b =>
    match b with
    | .str t => s == t
    | _ => false
  | .arr xs, b =>
    match b with
    | .arr ys => agreesElements xs ys
    | _ => false
  | .obj ms, b =>
    match b with
    | .obj ns => ms.length == ns.length && agreesMembers ms ns
    | _ => false
  | a, b => agreesScalar a b

/-- Lists agree element by element. -/
def agreesElements : List Json → List Json → Bool
  | [], ys => ys.isEmpty
  | x :: xs, ys =>
    match ys with
    | [] => false
    | y :: ys => x.agrees y && agreesElements xs ys

/-- Each of the members has a member of the same name in the other object, and they agree. -/
def agreesMembers : List (WideText × Json) → List (WideText × Json) → Bool
  | [], _ => true
  | (k, x) :: ms, ns =>
    (match Keyed.get? ns k with
      | some y => x.agrees y
      | none => false) && agreesMembers ms ns

end

end Json

end AliasGate
