/-!
# Keyed lists

Lists of pairs in which every key has one place. A key that is stored again keeps its place and
takes the new value, so the order is that of first insertion.
-/

namespace AliasGate

/-- Pairs of a key and a value, in order of first insertion. -/
abbrev Keyed (κ ν : Type) := List (κ × ν)

namespace Keyed

variable {κ ν : Type} [DecidableEq κ]

/-- The value under a key. -/
def get? (entries : Keyed κ ν) (key : κ) : Option ν :=
  match entries with
  | [] => none
  | (k, v) :: rest => if k = key then some v else get? rest key

/-- Stores a value: in the key's place if it has one, else at the end. -/
def put (entries : Keyed κ ν) (key : κ) (value : ν) : Keyed κ ν :=
  match entries with
  | [] => [(key, value)]
  | (k, v) :: rest => if k = key then (k, value) :: rest else (k, v) :: put rest key value

/-- Stores pairs one after another: the last value of a key in the place of its first. -/
def ofPairs (pairs : List (κ × ν)) : Keyed κ ν := pairs.foldl (fun e p => e.put p.1 p.2) []

/-- The entries without those under the given keys. -/
def without (entries : Keyed κ ν) (keys : List κ) : Keyed κ ν :=
  entries.filter fun e => e.1 ∉ keys

/-- The keys in order. -/
def keys (entries : Keyed κ ν) : List κ := entries.map (·.1)

end Keyed

end AliasGate
