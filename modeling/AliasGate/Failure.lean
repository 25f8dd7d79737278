import AliasGate.Issue
import AliasGate.Json.Reader
import AliasGate.Json.Writer
import AliasGate.Text.Quoted
import AliasGate.Url.Head

/-!
# Failures

A `Failure` is an outcome that the client is told about: it has a status and a message, and the
answer to the request shows both. A `Defect` is anything else that ends an operation. It has a name
and a message as well, but the client only learns that there was an internal error.
-/

namespace AliasGate

/-- The families of failures. -/
inductive Failure.Kind where
  | general
  | configuration
  | invalidArgument
  | accessToken
  | missingToken
  | incorrectToken
  | unknownPublicKey
  | resource
  | badRequest
  | methodNotAllowed
  | teapot
  | database
  deriving DecidableEq, Repr

namespace Failure.Kind

/-- All kinds. -/
def all : List Kind :=
  [general, configuration, invalidArgument, accessToken, missingToken, incorrectToken,
    unknownPublicKey, resource, badRequest, methodNotAllowed, teapot, database]

/-- The name under which a kind is reported. -/
def name : Kind → Text
  | general => "MediaVaultError".toList
  | configuration => "ConfigurationError".toList
  | invalidArgument => "InvalidArgumentError".toList
  | accessToken => "AccessTokenError".toList
  | missingToken => "MissingAccessToken".toList
  | incorrectToken => "IncorrectAccessToken".toList
  | unknownPublicKey => "UnknownPublicKey".toList
  | resource => "ResourceError".toList
  | badRequest => "BadRequestError".toList
  | methodNotAllowed => "MethodNotAllowedError".toList
  | teapot => "TeapotError".toList
  | database => "DatabaseError".toList

/-- The kind reported under a name. -/
def ofName? (s : Text) : Option Kind := all.find? fun k => k.name = s

/-- The status of a kind unless a failure has one of its own. -/
def status : Kind → Int
  | general => 500
  | configuration => 500
  | invalidArgument => 400
  | accessToken => 400
  | missingToken => 400
  | incorrectToken => 400
  | unknownPublicKey => 400
  | resource => 404
  | badRequest => 400
  | methodNotAllowed => 405
  | teapot => 418
  | database => 500

end Failure.Kind

/-- Why a request or a construction failed. -/
inductive Failure where
  /-- A signer was given no argument key. -/
  | noArgumentKey
  /-- A choice between signers was given none. -/
  | noSigners
  /-- What stands under an argument key is no signer. -/
  | invalidSigner (key : Text)
  /-- Settings name an algorithm that is not registered. -/
  | unknownAlgorithm (algorithm key : Text)
  /-- A signature was asked for under an argument key without a signer. -/
  | noSignerFor (key : Text)
  /-- What should sign tokens is no signer. -/
  | invalidTokenSigner
  /-- A subscription came after startup. -/
  | registryFrozen (event : Text)
  /-- What was subscribed is no listener. -/
  | invalidListener (event description : Text)
  /-- A route leads to a resource that is not there. -/
  | unservedRoute (resource : Text)
  | missingJson
  | invalidJson
  | invalidParams
  /-- The posted user or image is not the one in the path. -/
  | foreignParams
  | missingToken
  | incorrectToken
  | unknownPublicKey
  | shortUrlNotFound
  | invalidRoute
  | methodNotAllowed (method : Text) (allowed : List Text)
  | teapot
  /-- A record was to be stored under an id in use. -/
  | idInUse (id : Text)
  /-- Every id drawn was in use. -/
  | noFreeId
  /-- A call to the database or the cache failed. -/
  | backend (message : Text)
  /-- Something broke that the client is not told about. -/
  | internal
  /-- A listener refused the request in words and with a status of its own. -/
  | declared (kind : Failure.Kind) (message : Text) (status : Option Int) (allowed : List Text)
  deriving DecidableEq, Repr

namespace Failure

/-- The family of a failure. -/
def kind : Failure → Kind
  | noArgumentKey => .configuration
  | noSigners => .configuration
  | invalidSigner _ => .configuration
  | unknownAlgorithm _ _ => .configuration
  | noSignerFor _ => .configuration
  | invalidTokenSigner => .configuration
  | registryFrozen _ => .configuration
  | invalidListener _ _ => .configuration
  | unservedRoute _ => .configuration
  | missingJson => .invalidArgument
  | invalidJson => .invalidArgument
  | invalidParams => .invalidArgument
  | foreignParams => .invalidArgument
  | missingToken => .missingToken
  | incorrectToken => .incorrectToken
  | unknownPublicKey => .unknownPublicKey
  | shortUrlNotFound => .resource
  | invalidRoute => .badRequest
  | methodNotAllowed _ _ => .methodNotAllowed
  | teapot => .teapot
  | idInUse _ => .database
  | noFreeId => .database
  | backend _ => .database
  | internal => .general
  | declared kind _ _ _ => kind

/-- What the client is told. -/
def message : Failure → Text
  | noArgumentKey => "An access token generator needs at least one argument key".toList
  | noSigners => "No access token generators configured".toList
  | invalidSigner key => "Invalid access token generator for ".toList ++ key.quoted
  | unknownAlgorithm algorithm key =>
    "Unknown access token generator ".toList ++ algorithm.quoted ++ " for ".toList ++ key.quoted
  | noSignerFor key => "No access token generator for ".toList ++ key.quoted
  | invalidTokenSigner => "Invalid accessTokenGenerator".toList
  | registryFrozen event =>
    "Cannot subscribe to ".toList ++ event.quoted ++ " after startup".toList
  | invalidListener event description =>
    "Invalid listener for ".toList ++ event.quoted ++ ": ".toList ++ description
  | unservedRoute resource => "No resource registered for route ".toList ++ resource.quoted
  | missingJson => "Missing JSON data".toList
  | invalidJson => "Invalid JSON data".toList
  | invalidParams => "Missing or invalid short URL parameters".toList
  | foreignParams => "User and image identifier must match the requested image".toList
  | missingToken => "Missing access token".toList
  | incorrectToken => "Incorrect access token".toList
  | unknownPublicKey => "Unknown public key".toList
  | shortUrlNotFound => "ShortURL not found".toList
  | invalidRoute => "Invalid route".toList
  | methodNotAllowed method _ => "Method ".toList ++ method ++ " not allowed".toList
  | teapot => "I'm a teapot!".toList
  | idInUse id => "Short URL ".toList ++ id ++ " already exists".toList
  | noFreeId => "Unable to allocate a unique short URL id".toList
  | backend message => message
  | internal => "Internal server error".toList
  | declared _ message _ _ => message

/-- The status of the answer. -/
def status : Failure → Int
  | declared kind _ status _ => status.getD kind.status
  | f => f.kind.status

/-- The methods that the answer lists as allowed. -/
def allowed : Failure → List Text
  | methodNotAllowed _ allowed => allowed
  | declared .methodNotAllowed _ _ allowed => allowed
  | _ => []

/-- A failure of a kind with a message and a status. Three token failures and the teapot have one
wording and one status; a refused method has one status. -/
def declare (kind : Kind) (message : Text) (status : Option Int) (allowed : List Text) : Failure :=
  match kind with
  | .missingToken => .missingToken
  | .incorrectToken => .incorrectToken
  | .unknownPublicKey => .unknownPublicKey
  | .teapot => .teapot
  | .methodNotAllowed => .declared .methodNotAllowed message none allowed
  | kind => .declared kind message status []

/-- A failure on one line: kind, message and status. -/
def describe (f : Failure) : Text :=
  f.kind.name ++ '(' :: f.message.quoted ++ ", status_code=".toList ++ Text.ofInt f.status ++ [')']

end Failure

/-- Why an operation ended otherwise than by a failure. -/
inductive Defect where
  /-- A subscription named no event. -/
  | unnamedEvent
  /-- Ids must have at least one character. -/
  | idLength (length : Int)
  /-- A query text uses one name both plainly and in array notation. -/
  | plainAndArray
  /-- A cached record does not read back. -/
  | invalidRecord (issues : List Issue)
  /-- A record has no written form. -/
  | unwritable (reason : Json.Unwritable)
  /-- A column of text cannot hold a lone surrogate. -/
  | unencodable (text : WideText)
  /-- A value that was received nests too deep. -/
  | tooDeep (container : Json.Container)
  /-- A server that has to name itself does not know the socket number of this scheme. -/
  | unknownScheme (scheme : Text)
  /-- The URL by which the server knows a request is refused. -/
  | invalidUrl (reason : Url.Refusal)
  /-- A listener broke off, in words of its own. -/
  | declared (kind message : Text)
  deriving DecidableEq, Repr

namespace Defect

/-- The name of a defect. -/
def name : Defect → Text
  | unnamedEvent => "AssertionError".toList
  | idLength _ => "AssertionError".toList
  | plainAndArray => "AttributeError".toList
  | invalidRecord _ => "ValidationError".toList
  | unwritable _ => "PydanticSerializationError".toList
  | unencodable _ => "UnicodeEncodeError".toList
  | tooDeep _ => "RecursionError".toList
  | unknownScheme _ => "KeyError".toList
  | invalidUrl _ => "ValueError".toList
  | declared kind _ => kind

/-- The words of a defect. Those of an invalid record are its issues. -/
def message : Defect → Text
  | unnamedEvent => "event_name must be non-empty".toList
  | idLength length => "length must be a positive integer, got ".toList ++ Text.ofInt length
  | plainAndArray => "'str' object has no attribute 'append'".toList
  | invalidRecord _ => []
  | unwritable reason =>
    "Error serializing to JSON: ".toList ++ reason.name ++ ": ".toList ++ reason.message
  | unencodable text => WideText.refusal text
  | tooDeep .list =>
    "maximum recursion depth exceeded while decoding a JSON array from a unicode string".toList
  | tooDeep .object =>
    "maximum recursion depth exceeded while decoding a JSON object from a unicode string".toList
  | unknownScheme scheme => scheme.quoted
  | invalidUrl reason => reason.message
  | declared _ message => message

end Defect

/-- Why an operation has no result. -/
inductive Fault where
  | failure (f : Failure)
  | defect (d : Defect)
  deriving DecidableEq, Repr

namespace Fault

/-- The name of a fault. -/
def name : Fault → Text
  | failure f => f.kind.name
  | defect d => d.name

/-- The words of a fault. -/
def message : Fault → Text
  | failure f => f.message
  | defect d => d.message

/-- What the client is told about a fault. -/
def told : Fault → Failure
  | failure f => f
  | defect _ => .internal

end Fault

end AliasGate
