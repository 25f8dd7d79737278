import AliasGate.Failure
import AliasGate.Json.Reader
import AliasGate.Query.Argument
import AliasGate.ShortUrl.Basic

/-!
# Reading short URLs

A short URL is read from a JSON object. All fields are looked at before it is refused, so that every
issue is told. Fields that are not known are ignored. The query may be given as text: arguments in
array notation are collected in a list under their name, and of other arguments the last value counts.

* `ShortUrl.ofQueryText?` makes an object of a query text.
* `ShortUrl.ofJson` reads a value, `ShortUrl.ofStored` a stored text.
-/

namespace AliasGate.ShortUrl

/-- Why a value is no short URL. -/
inductive Refusal where
  | issues (found : List Issue)
  /-- The query text uses one name for a value and then for a list. -/
  | plainAndArray
  deriving DecidableEq, Repr

/-- The defect that a refusal is where a short URL had to be there. -/
def Refusal.defect : Refusal → Defect
  | issues found => .invalidRecord found
  | plainAndArray => .plainAndArray

/-! ## Query texts -/

/-- The name before the brackets of an argument in array notation: what stands before the first
opening bracket, if a closing one ends the argument. -/
def arrayName? (key : WideText) : Option WideText :=
  match key.getLast?, Text.cut (.char '[') key with
  | some (.char ']'), (name, some _) => some name
  | _, _ => none

/-- Adds an argument to the object. A list cannot be begun where a single value stands. -/
def addArgument (query : Keyed WideText Json) (key value : WideText) :
    Option (Keyed WideText Json) :=
  match arrayName? key with
  | none => some (Keyed.put query key (.str value))
  | some name =>
    match Keyed.get? query name with
    | none => some (Keyed.put query name (.arr [.str value]))
    | some (.arr values) => some (Keyed.put query name (.arr (values ++ [.str value])))
    | some _ => none

/-- A query text without the question marks before it. -/
def dropMarks (s : WideText) : WideText := s.dropWhile (· == .char '?')

/-- The object of a query text, unless a name is used for a value and then for a list. -/
def ofQueryText? (s : WideText) : Option (Keyed WideText Json) :=
  (Query.formWide (dropMarks s)).foldlM (fun query p => addArgument query p.1 p.2) []

/-! ## Fields -/

/-- A text that has to be there and must not be empty. -/
def checkName (field : String) : Option Json → Checked Text
  | none => Checked.refused field .missing
  | some (.str s) =>
    match WideText.toText? s with
    | none => Checked.refused field .loneSurrogate
    | some [] => Checked.refused field .tooShort
    | some s => .valid s
  | some _ => Checked.refused field .notText

/-- A text that may be left out. -/
def checkExtension : Option Json → Checked (Option WideText)
  | none => .valid none
  | some .null => .valid none
  | some (.str s) => .valid (some s)
  | some _ => Checked.refused "extension" .notText

/-- An object, the text of a query, or nothing. -/
def checkQuery : Option Json → Except Refusal (Checked (Keyed WideText Json))
  | none => .ok (.valid [])
  | some .null => .ok (.valid [])
  | some (.str s) =>
    match ofQueryText? s with
    | some query => .ok (.valid query)
    | none => .error .plainAndArray
  | some (.obj members) => .ok (.valid members)
  | some _ => .ok (Checked.refused "query" .notMapping)

/-! ## Objects -/

/-- A field of an object. -/
def field? (members : Keyed WideText Json) (name : String) : Option Json :=
  Keyed.get? members (WideText.ofText name.toList)

/-- The image of an object. The field has a public name and another one. The public one wins, and an
issue is told of the name in use. -/
def checkImage (members : Keyed WideText Json) : Checked Text :=
  match field? members "imageIdentifier", field? members "image_identifier" with
  | none, some j => checkName "image_identifier" (some j)
  | found, _ => checkName "imageIdentifier" found

/-- The short URL of an object. -/
def ofMembers (members : Keyed WideText Json) : Except Refusal ShortUrl := do
  let query ← checkQuery (field? members "query")
  let user := checkName "user" (field? members "user")
  let image := checkImage members
  let extension := checkExtension (field? members "extension")
  match mk <$> user <*> image <*> extension <*> query with
  | .valid s => .ok s
  | .invalid found => .error (.issues found)

/-- The short URL that a value describes. -/
def ofJson : Json → Except Refusal ShortUrl
  | .obj members => ofMembers members
  | _ => .error (.issues [⟨[], .notRecord⟩])

/-- The short URL of a stored text. -/
def ofStored (s : WideText) : Except Refusal ShortUrl :=
  match Json.read .stored s with
  | .ok j => ofJson j
  | .error _ => .error (.issues [⟨[], .invalidJson⟩])

end AliasGate.ShortUrl
