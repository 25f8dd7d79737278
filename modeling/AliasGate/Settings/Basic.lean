import AliasGate.Keyed
import AliasGate.Text.CodePoint
import AliasGate.Text.Quoted
import AliasGate.Token.Candidate
import AliasGate.Transformation.Basic

/-!
# Settings

What can be configured, with the values that hold unless the environment says otherwise.
-/

namespace AliasGate

/-- Where short URLs are kept. -/
inductive Backend where
  | sql
  | memory
  deriving DecidableEq, Repr

namespace Backend

/-- The name of a backend in settings. -/
def name : Backend → Text
  | sql => "sql".toList
  | memory => "memory".toList

/-- The backend with a name. -/
def ofName? (s : Text) : Option Backend := [sql, memory].find? fun b => b.name = s

end Backend

/-- Private keys by public keys. -/
abbrev AccessKeys := Keyed Text Text

namespace AccessKeys

/-- The private key of a public key; without a public key there is none. -/
def privateKey? (keys : AccessKeys) (publicKey : Option Text) : Option Text :=
  publicKey.bind fun key => Keyed.get? keys key

/-- The public keys in the order of their code points. -/
def publicKeys (keys : AccessKeys) : List Text :=
  (Keyed.keys keys).mergeSort fun s t => !decide (t < s)

/-- The public keys on one line; private keys are not shown. -/
def describe (keys : AccessKeys) : Text :=
  "<ArrayAccessControl(public_keys=[".toList ++
    Text.joined ", ".toList ((publicKeys keys).map Text.quoted) ++ "])>".toList

end AccessKeys

/-- All settings, with texts of a type: settings that were just read may hold lone surrogates in
their texts, settings in use do not. -/
structure Settings.Form (τ : Type) where
  appName : τ
  appEnv : τ
  logLevel : τ
  backend : Backend
  databaseUrl : τ
  cacheUrl : τ
  /-- The schemes that signed URLs may have. -/
  protocol : Protocol
  /-- The argument keys of tokens when no signers are named. -/
  argumentKeys : List τ
  /-- Argument keys with the algorithm for each. -/
  signers : Keyed τ τ
  /-- Public keys with the private key of each. -/
  accessKeys : Keyed τ τ
  whitelist : List τ
  blacklist : List τ
  /-- The peers that may say by which URL they were reached. -/
  trustedProxies : List τ
  idLength : Int
  /-- How many seconds a cached record lives. -/
  cacheSeconds : Int
  deriving DecidableEq, Repr

/-- Settings in use. -/
abbrev Settings := Settings.Form Text

namespace Settings

variable {τ υ : Type}

/-- Applies a function to every text. -/
def Form.map (f : τ → υ) (s : Form τ) : Form υ where
  appName := f s.appName
  appEnv := f s.appEnv
  logLevel := f s.logLevel
  backend := s.backend
  databaseUrl := f s.databaseUrl
  cacheUrl := f s.cacheUrl
  protocol := s.protocol
  argumentKeys := s.argumentKeys.map f
  signers := s.signers.map fun m => (f m.1, f m.2)
  accessKeys := s.accessKeys.map fun m => (f m.1, f m.2)
  whitelist := s.whitelist.map f
  blacklist := s.blacklist.map f
  trustedProxies := s.trustedProxies.map f
  idLength := s.idLength
  cacheSeconds := s.cacheSeconds

/-- The settings that hold unless something else is said. -/
def standard : Settings where
  appName := "mediavault".toList
  appEnv := "development".toList
  logLevel := "INFO".toList
  backend := .sql
  databaseUrl := "postgresql+asyncpg://mediavault:mediavault@db:5432/mediavault".toList
  cacheUrl := "redis://redis:6379/0".toList
  protocol := .incoming
  argumentKeys := ["accessToken".toList]
  signers := []
  accessKeys := []
  whitelist := []
  blacklist := []
  trustedProxies := []
  idLength := 7
  cacheSeconds := 3600

/-- The settings to be used: lone surrogates are replaced. -/
def Form.toSettings (s : Form WideText) : Settings := s.map WideText.toTextLossy

/-- The filter that the two lists of transformations make up. -/
def filter (s : Settings) : Transformation.Filter := ⟨s.whitelist, s.blacklist⟩

end Settings

end AliasGate
