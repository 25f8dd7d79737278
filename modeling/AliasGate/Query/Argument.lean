import AliasGate.Query.Percent
import AliasGate.Text.Basic

/-!
# Query arguments

Two readings of the text after the question mark, and the writing of arguments behind a base.

* `Query.form` is the reading of form data: plus signs are spaces, and every argument has a value.
* `Query.arguments` is the reading that candidate URLs are rebuilt from: plus signs stay, and an
  argument without an equals sign has no value.
* `Query.index` and `Query.reduce` turn the notation `name[]` of an argument that is one of several
  into `name[3]` and back.
-/

namespace AliasGate.Query

/-- A name with a value, or a name alone. -/
abbrev Argument := Text × Option Text

section
variable {α : Type} [DecidableEq α]

/-- The arguments between separators, each cut at its first equals sign; empty ones are skipped. -/
def split (ampersand equals : α) (s : List α) : List (List α × Option (List α)) :=
  ((Text.fields ampersand s).filter (· ≠ [])).map (Text.cut equals)

end

/-- Names and values of form data, blank values kept. -/
def form (s : Text) : List (Text × Text) :=
  (split '&' '=' s).map fun (name, value) =>
    (Percent.decodeForm name, Percent.decodeForm (value.getD []))

/-- Names and values of form data in a text that may hold lone surrogates. -/
def formWide (s : WideText) : List (WideText × WideText) :=
  (split (.char '&') (.char '=') s).map fun (name, value) =>
    (WideText.onRuns Percent.decodeForm name, WideText.onRuns Percent.decodeForm (value.getD []))

/-- Names and values with plus signs as they are. -/
def arguments (s : Text) : List Argument :=
  (split '&' '=' s).map fun (name, value) => (Percent.decode name, value.map Percent.decode)

/-- An argument as it stands in a URL, each part written by `write`. -/
def writeArgument (write : Text → Text) : Argument → Text
  | (name, none) => write name
  | (name, some value) => write name ++ '=' :: write value

/-- A base with arguments behind a question mark, or the base alone if there are none. -/
def join (write : Text → Text) (base : Text) (args : List Argument) : Text :=
  match args with
  | [] => base
  | _ => base ++ '?' :: Text.joined ['&'] (args.map (writeArgument write))

/-- The value of the first pair with a name. -/
def first? (name : Text) (pairs : List (Text × Text)) : Option Text := pairs.lookup name

/-! ## Array notation -/

/-- The name before a closing empty pair of brackets. -/
def unindexed? (key : Text) : Option Text := Text.before? ['[', ']'] key

/-- How often a name has been numbered so far. -/
def occurrences (name : Text) (seen : List Text) : Nat := seen.count name

/-- Numbers the names in empty brackets, each name from zero on, given the names numbered before. -/
def indexFrom : List Text → List Argument → List Argument
  | _, [] => []
  | seen, (key, value) :: args =>
    match unindexed? key with
    | some name =>
      (name ++ '[' :: Text.ofNat (occurrences name seen) ++ [']'], value) ::
        indexFrom (name :: seen) args
    | none => (key, value) :: indexFrom seen args

/-- Each `name[]` becomes `name[0]`, `name[1]`, … in order. -/
def index (args : List Argument) : List Argument := indexFrom [] args

/-- What stands before a closing pair of brackets with digits of any script between them. -/
def beforeIndex? (key : Text) : Option Text :=
  match key.reverse with
  | ']' :: s =>
    match s.span Text.isDecimalDigit with
    | (_ :: _, '[' :: name) => some name.reverse
    | _ => none
  | _ => none

/-- A name with its closing index emptied. One line feed may follow the index; it stays. -/
def reduceKey (key : Text) : Text :=
  match beforeIndex? key with
  | some name => name ++ ['[', ']']
  | none =>
    match (Text.before? ['\n'] key).bind beforeIndex? with
    | some name => name ++ ['[', ']', '\n']
    | none => key

/-- Each `name[3]` becomes `name[]`. -/
def reduce (args : List Argument) : List Argument :=
  args.map fun (key, value) => (reduceKey key, value)

end AliasGate.Query
