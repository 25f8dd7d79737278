import AliasGate.Failure
import AliasGate.Settings.Basic
import AliasGate.Settings.Integer

/-!
# Reading settings

Settings are read from named values, and the values from the environment, where lists and mappings
are JSON texts.

* `Settings.ofValues` reads the values and tells every issue.
* `Settings.ofEnvironment` also tells which of the JSON texts does not read.
-/

namespace AliasGate.Settings

/-- Why there are no settings. -/
inductive Refusal where
  /-- The JSON text of a field does not read. -/
  | unreadable (field : Text)
  /-- The JSON text of a field nests too deep. -/
  | tooDeep (container : Json.Container)
  | issues (found : List Issue)
  deriving DecidableEq, Repr

/-- The name of a refusal. -/
def Refusal.name : Refusal → Text
  | unreadable _ => "SettingsError".toList
  | tooDeep container => (Defect.tooDeep container).name
  | issues found => (Defect.invalidRecord found).name

/-- The words of a refusal. -/
def Refusal.message : Refusal → Text
  | unreadable field =>
    "error parsing value for field \"".toList ++ field ++
      "\" from source \"EnvSettingsSource\"".toList
  | tooDeep container => (Defect.tooDeep container).message
  | issues found => (Defect.invalidRecord found).message

/-! ## Fields -/

/-- A field that is not given keeps its default. -/
def orDefault {α : Type} (default : α) (read : Json → Checked α) : Option Json → Checked α
  | none => .valid default
  | some j => read j

/-- A text at a place of a value. -/
def textAt (path : List Issue.Step) (j : Json) : Checked WideText :=
  match j with
  | .str s => .valid s
  | _ => .invalid [⟨path, .notText⟩]

/-- A text. -/
def readText (field : String) (j : Json) : Checked WideText := textAt [.field field.toList] j

/-- One of several names. -/
def readName {α : Type} (field : String) (ofName? : Text → Option α) (j : Json) : Checked α :=
  match j with
  | .str s =>
    match (WideText.toText? s).bind ofName? with
    | some a => .valid a
    | none => Checked.refused field .unknownName
  | _ => Checked.refused field .unknownName

/-- An integer, as a number or as a text. -/
def readInteger (field : String) (j : Json) : Checked Int :=
  match integer j with
  | .ok n => .valid n
  | .error reason => Checked.refused field reason

/-- The texts of a list from a place on. -/
def readElements (field : String) : Nat → List Json → Checked (List WideText)
  | _, [] => .valid []
  | n, j :: js =>
    List.cons <$> textAt [.field field.toList, .place n] j <*> readElements field (n + 1) js

/-- A list of texts. -/
def readTexts (field : String) (j : Json) : Checked (List WideText) :=
  match j with
  | .arr elements => readElements field 0 elements
  | _ => Checked.refused field .notList

/-- The members of an object whose values are texts. -/
def readMembers (field : String) : Keyed WideText Json → Checked (Keyed WideText WideText)
  | [] => .valid []
  | (k, j) :: members =>
    let path : List Issue.Step := [.field field.toList, .field (WideText.toTextLossy k)]
    (fun v rest => (k, v) :: rest) <$> textAt path j <*> readMembers field members

/-- An object whose values are texts. -/
def readMapping (field : String) (j : Json) : Checked (Keyed WideText WideText) :=
  match j with
  | .obj members => readMembers field members
  | _ => Checked.refused field .notMapping

/-! ## All fields -/

/-- The settings that named values describe. -/
def ofValues (values : Keyed Text Json) : Checked (Form WideText) :=
  let field {α : Type} (read : String → Json → Checked α) (name : String) (default : α) :
      Checked α :=
    orDefault default (read name) (Keyed.get? values name.toList)
  let d : Form WideText := Settings.standard.map WideText.ofText
  Form.mk <$>
    field readText "APP_NAME" d.appName <*>
    field readText "APP_ENV" d.appEnv <*>
    field readText "LOG_LEVEL" d.logLevel <*>
    field (readName · Backend.ofName?) "DATABASE_BACKEND" d.backend <*>
    field readText "DATABASE_URL" d.databaseUrl <*>
    field readText "REDIS_URL" d.cacheUrl <*>
    field (readName · Protocol.ofName?) "AUTHENTICATION_PROTOCOL" d.protocol <*>
    field readTexts "ACCESS_TOKEN_ARGUMENT_KEYS" d.argumentKeys <*>
    field readMapping "ACCESS_TOKEN_GENERATORS" d.signers <*>
    field readMapping "ACCESS_CONTROL_KEYS" d.accessKeys <*>
    field readTexts "TRANSFORMATIONS_WHITELIST" d.whitelist <*>
    field readTexts "TRANSFORMATIONS_BLACKLIST" d.blacklist <*>
    field readTexts "TRUSTED_PROXIES" d.trustedProxies <*>
    field readInteger "SHORT_URL_ID_LENGTH" d.idLength <*>
    field readInteger "SHORT_URL_CACHE_TTL_SECONDS" d.cacheSeconds

/-! ## The environment -/

/-- The fields whose values in the environment are taken as they stand. -/
def plainFields : List Text :=
  ["APP_NAME".toList, "APP_ENV".toList, "LOG_LEVEL".toList, "DATABASE_BACKEND".toList,
    "DATABASE_URL".toList, "REDIS_URL".toList, "AUTHENTICATION_PROTOCOL".toList,
    "SHORT_URL_ID_LENGTH".toList, "SHORT_URL_CACHE_TTL_SECONDS".toList]

/-- The fields whose values in the environment are JSON texts, in order. -/
def structuredFields : List Text :=
  ["ACCESS_TOKEN_ARGUMENT_KEYS".toList, "ACCESS_TOKEN_GENERATORS".toList,
    "ACCESS_CONTROL_KEYS".toList, "TRANSFORMATIONS_WHITELIST".toList,
    "TRANSFORMATIONS_BLACKLIST".toList, "TRUSTED_PROXIES".toList]

/-- The values of plain fields. -/
def plainValues (environment : Keyed Text Text) : Keyed Text Json :=
  plainFields.filterMap fun name =>
    (Keyed.get? environment name).map fun value => (name, Json.text value)

/-- The values of structured fields; `null` is no value. -/
def structuredValues (room : Nat) (environment : Keyed Text Text) :
    List Text → Except Refusal (Keyed Text Json)
  | [] => .ok []
  | name :: names =>
    match Keyed.get? environment name with
    | none => structuredValues room environment names
    | some value =>
      match Json.read (.received room) (WideText.ofText value) with
      | .error .malformed => .error (.unreadable name)
      | .error (.tooDeep container) => .error (.tooDeep container)
      | .ok .null => structuredValues room environment names
      | .ok j => (structuredValues room environment names).map fun values => (name, j) :: values

/-- The settings that an environment describes. The room is what is left on the stack for reading a
JSON text. -/
def ofEnvironment (room : Nat) (environment : Keyed Text Text) : Except Refusal (Form WideText) :=
  match structuredValues room environment structuredFields with
  | .error refusal => .error refusal
  | .ok values =>
    match ofValues (plainValues environment ++ values) with
    | .valid settings => .ok settings
    | .invalid found => .error (.issues found)

end AliasGate.Settings
