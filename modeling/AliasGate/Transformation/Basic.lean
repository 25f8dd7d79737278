import AliasGate.Keyed
import AliasGate.Text.Basic

/-!
# Transformations

A query asks for transformations of an image by arguments named `t`, `t[]` or `t[3]`, whose values
are a name and parameters: `thumbnail:width=40,height=40`.

* `Transformation.ofValue` reads one value, `Transformation.render` writes it.
* `Transformation.ofQuery` lists the transformations of a decoded query in order.
* `Transformation.Filter.isExempt` says which of them need no token.
-/

namespace AliasGate

/-- A transformation with its parameters. -/
structure Transformation where
  name : Text
  params : Keyed Text Text
  deriving DecidableEq, Repr

namespace Transformation

/-! ## Argument names -/

/-- `t` alone, or followed by brackets that hold nothing but digits of any script. -/
def isPlainKey : Text → Bool
  | 't' :: s =>
    match s with
    | [] => true
    | '[' :: s => s.dropWhile Text.isDecimalDigit == [']']
    | _ => false
  | _ => false

/-- The name of an argument that asks for a transformation. One line feed may end it. -/
def isKey (key : Text) : Bool :=
  (Text.orBeforeNewline (fun s => if isPlainKey s then some () else none) key).isSome

/-! ## Values -/

/-- The parameters after the colon; empty ones are skipped, and one without an equals sign has an
empty value. -/
def paramsOf (s : Text) : Keyed Text Text :=
  Keyed.ofPairs (((Text.fields ',' s).filter (· ≠ [])).map fun pair =>
    let (key, value) := Text.cut '=' pair
    (key, value.getD []))

/-- The transformation that a value describes. -/
def ofValue (value : Text) : Transformation :=
  let (name, params) := Text.cut ':' value
  ⟨name, paramsOf (params.getD [])⟩

/-- A parameter as it stands in a value. -/
def renderParam (param : Text × Text) : Text := param.1 ++ '=' :: param.2

/-- The value that describes a transformation. -/
def render (t : Transformation) : Text :=
  match t.params with
  | [] => t.name
  | params => t.name ++ ':' :: Text.joined [','] (params.map renderParam)

/-- The transformations of a decoded query, in order; arguments with an empty value ask for none. -/
def ofQuery (pairs : List (Text × Text)) : List Transformation :=
  (pairs.filter fun pair => isKey pair.1 && pair.2 != []).map fun pair => ofValue pair.2

/-! ## Exemption -/

/-- The names that exempt a request and the names that prevent it. -/
structure Filter where
  whitelist : List Text
  blacklist : List Text
  deriving DecidableEq, Repr

namespace Filter

/-- There is a name on one of the lists. -/
def configured (f : Filter) : Bool := f.whitelist != [] || f.blacklist != []

/-- A request for the named transformations needs no token: there is at least one of them, none is
refused, and if there are allowed names each of them is allowed. -/
def isExempt (f : Filter) (names : List Text) : Bool :=
  f.configured && names != [] && names.all (· ∉ f.blacklist) &&
    (f.whitelist == [] || names.all (· ∈ f.whitelist))

end Filter

end Transformation

end AliasGate
