import AliasGate.Text.Basic

/-!
# Issues

What is wrong with a value that was read, and where. A value can have several issues; they are
listed in the order of its fields.
-/

namespace AliasGate

/-- A step into a value: the field of an object or the place in a list. -/
inductive Issue.Step where
  | field (name : Text)
  | place (n : Nat)
  deriving DecidableEq, Repr

/-- Why a value is refused. -/
inductive Issue.Reason where
  | missing
  | notText
  | tooShort
  | loneSurrogate
  | notMapping
  | notList
  | unknownName
  /-- The text of an integer does not read. -/
  | notInteger
  /-- The number is an integer that is too great. -/
  | tooLarge
  /-- An integer was wanted, and the number has a fraction. -/
  | fractional
  | nonFinite
  | notNumber
  | notRecord
  | invalidJson
  deriving DecidableEq, Repr

/-- The name under which a reason is reported. -/
def Issue.Reason.name : Issue.Reason → Text
  | missing => "missing".toList
  | notText => "string_type".toList
  | tooShort => "string_too_short".toList
  | loneSurrogate => "string_unicode".toList
  | notMapping => "dict_type".toList
  | notList => "list_type".toList
  | unknownName => "enum".toList
  | notInteger => "int_parsing".toList
  | tooLarge => "int_parsing_size".toList
  | fractional => "int_from_float".toList
  | nonFinite => "finite_number".toList
  | notNumber => "int_type".toList
  | notRecord => "model_type".toList
  | invalidJson => "json_invalid".toList

/-- A refused value: where it stands and why it is refused. -/
structure Issue where
  path : List Issue.Step
  reason : Issue.Reason
  deriving DecidableEq, Repr

/-- A value, or the issues that prevent it. -/
inductive Checked (α : Type) where
  | valid (a : α)
  | invalid (issues : List Issue)

namespace Checked

variable {α β : Type}

/-- A field with one issue. -/
def refused (field : String) (reason : Issue.Reason) : Checked α :=
  .invalid [⟨[.field field.toList], reason⟩]

/-- Applies a function to one more value; the issues of both sides are kept, in order. -/
def apply (f : Checked (α → β)) (x : Checked α) : Checked β :=
  match f, x with
  | valid f, valid x => valid (f x)
  | valid _, invalid issues => invalid issues
  | invalid issues, valid _ => invalid issues
  | invalid issues, invalid more => invalid (issues ++ more)

instance : Applicative Checked where
  pure := valid
  seq f x := apply f (x ())

end Checked

end AliasGate
