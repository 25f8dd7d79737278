import AliasGate.Text.Basic
import AliasGate.Text.Case
import AliasGate.Text.Quoted

/-!
# Heads of URLs

The head of a URL is its scheme and its authority, either of which may be empty. The hosts that a
client may name are a name or an address in brackets, and perhaps a socket number (RFC 3986, except
that a percent sign may stand anywhere in a name).

* `Url.Address.isDotted`: four numbers with points between them.
* `Url.Address.isGrouped`: eight groups of hexadecimal digits with colons between them.
* `Url.Address.isFuture`: addresses of later kinds, which begin with a small `v`.
* `Url.Host.isHost` tells hosts from other texts.
* `Url.readHead` reads the head, or says why the URL is refused (`Url.Refusal.message`).
-/

namespace AliasGate.Url.Address

/-- A hexadecimal digit in either case. -/
def isHexDigit (c : Char) : Bool := (Text.hexValue? c).isSome

/-- The decimal form of a number below 256. -/
def isByte (s : Text) : Bool := (List.range 256).any fun n => Text.ofNat n == s

/-- Four numbers below 256 with points between them. -/
def isDotted (s : Text) : Bool :=
  let fields := Text.fields '.' s
  fields.length == 4 && fields.all isByte

/-- One to four hexadecimal digits. -/
def isGroup (s : Text) : Bool := s != [] && decide (s.length ≤ 4) && s.all isHexDigit

/-- How many groups the fields are. The last field may be in dotted form, which stands for two. -/
def groupCount? : List Text → Option Nat
  | [] => some 0
  | [s] => if isGroup s then some 1 else if isDotted s then some 2 else none
  | s :: ss => if isGroup s then (groupCount? ss).map (· + 1) else none

/-- What stands before the first two colons in a row, and what follows them if there are any. -/
def cutGap : Text → Text × Option Text
  | [] => ([], none)
  | ':' :: ':' :: s => ([], some s)
  | c :: s => (c :: (cutGap s).1, (cutGap s).2)

/-- The fields between single colons; an empty text has none. -/
def groups : Text → List Text
  | [] => []
  | s => Text.fields ':' s

/-- An address of eight groups. Two colons in a row stand, once, for one or more groups. -/
def isGrouped (s : Text) : Bool :=
  match cutGap s with
  | (_, none) => groupCount? (groups s) == some 8
  | (left, some right) =>
    (groups left).all isGroup &&
      (groupCount? (groups right)).any fun n => decide ((groups left).length + n ≤ 7)

/-- An address of eight groups, perhaps with a percent sign and the zone in which it holds. -/
def isZoned (s : Text) : Bool :=
  match Text.cut '%' s with
  | (address, some zone) => isGrouped address && zone != [] && decide ('%' ∉ zone)
  | _ => isGrouped s

/-- An address of a later kind: a small `v`, the hexadecimal number of the kind, a point, and at
least one character, all of which have to satisfy `p`. -/
def isFuture (p : Char → Bool) : Text → Bool
  | 'v' :: s =>
    match Text.cut '.' s with
    | (kind, some rest) => kind != [] && kind.all isHexDigit && rest != [] && rest.all p
    | _ => false
  | _ => false

end AliasGate.Url.Address

/-! ## Hosts -/

namespace AliasGate.Url.Host

/-- The marks that names and later addresses may hold beside letters and digits. -/
def marks : Text := "-._~!$&'()*+,;=".toList

/-- A letter or digit of ASCII, or a mark. -/
def isPlain (c : Char) : Bool := c.isAlphanum || decide (c ∈ marks)

/-- A name: at least one plain character or percent sign. -/
def isName (s : Text) : Bool := s != [] && s.all fun c => isPlain c || c == '%'

/-- An address of eight groups, or one of a later kind with plain characters and colons. -/
def isAddress (s : Text) : Bool :=
  Address.isGrouped s || Address.isFuture (fun c => isPlain c || c == ':') s

/-- The greatest socket number. -/
def maxSocket : Nat := 65535

/-- The number that digits write. -/
def socketOfDigits (s : Text) : Nat := s.foldl (fun n c => n * 10 + (c.toNat - '0'.toNat)) 0

/-- At least one digit, and not too great a number. Zeros in front do not matter. -/
def isSocket (s : Text) : Bool :=
  s != [] && s.all Text.isAsciiDigit && decide (socketOfDigits s ≤ maxSocket)

/-- A name, or an address in brackets. -/
def isHostPart : Text → Bool
  | '[' :: s => (Text.before? [']'] s).any isAddress
  | s => isName s

/-- The text is a host; its last colon outside of brackets parts it from a socket number. -/
def isHost (s : Text) : Bool :=
  match Text.cut ':' s.reverse with
  | (socket, some rest) =>
    if ']' ∈ socket then isHostPart s else isSocket socket.reverse && isHostPart rest.reverse
  | _ => isHostPart s

end AliasGate.Url.Host

/-! ## Heads -/

namespace AliasGate.Url

/-- Why a URL is refused. -/
inductive Refusal where
  /-- The authority has brackets of one side only. -/
  | brackets
  /-- What stands in brackets begins as an address of a later kind and is none. -/
  | futureAddress
  /-- What stands in brackets is an address of four numbers. -/
  | dottedAddress
  /-- What stands in brackets is no address. -/
  | address (s : Text)
  /-- The authority has a character that is another form of a delimiter. -/
  | disguisedDelimiter (authority : Text)
  deriving DecidableEq, Repr

/-- The wording of a refusal. -/
def Refusal.message : Refusal → Text
  | brackets => "Invalid IPv6 URL".toList
  | futureAddress => "IPvFuture address is invalid".toList
  | dottedAddress => "An IPv4 address cannot be in brackets".toList
  | address s => s.quoted ++ " does not appear to be an IPv4 or IPv6 address".toList
  | disguisedDelimiter authority =>
    "netloc '".toList ++ authority ++
      "' contains invalid characters under NFKC normalization".toList

/-- The scheme of a URL in lower case, and its authority. -/
structure Head where
  scheme : Text
  authority : Text
  deriving DecidableEq, Repr

/-! ## Scheme -/

/-- A tab or an end of a line, which URLs are read without. -/
def isIgnored (c : Char) : Bool := c == '\t' || c == '\r' || c == '\n'

/-- The text that is read: without spaces and controls in front, and without ignored characters. -/
def cleaned (s : Text) : Text :=
  (s.dropWhile fun c => decide (c.toNat ≤ 0x20)).filter fun c => !isIgnored c

/-- A character of a scheme: a letter or digit of ASCII, or one of three marks. -/
def isSchemeChar (c : Char) : Bool := c.isAlphanum || c == '+' || c == '-' || c == '.'

/-- The scheme and what follows its colon. A scheme begins with a letter; without one the whole text
is left. -/
def cutScheme (s : Text) : Text × Text :=
  match Text.cut ':' s with
  | (c :: cs, some rest) =>
    if c.isAlpha && cs.all isSchemeChar then (Text.lower (c :: cs), rest) else ([], s)
  | _ => ([], s)

/-! ## Authority -/

/-- A character that ends an authority. -/
def endsAuthority (c : Char) : Bool := c == '/' || c == '?' || c == '#'

/-- What stands after two slashes up to the end of the authority; nothing if there are none. -/
def authorityOf (s : Text) : Text :=
  ((Text.after? ['/', '/'] s).getD []).takeWhile fun c => !endsAuthority c

/-- What follows the first opening bracket, up to a closing one. -/
def bracketed (authority : Text) : Text :=
  (Text.cut ']' ((Text.cut '[' authority).2.getD [])).1

/-- Checks what stands in brackets. -/
def checkAddress (s : Text) : Except Refusal Unit :=
  if s.head? = some 'v' then
    if Address.isFuture (fun _ => true) s then .ok () else .error .futureAddress
  else if Address.isDotted s then .error .dottedAddress
  else if Address.isZoned s then .ok ()
  else .error (.address s)

/-- Checks the brackets of an authority: both sides or none, and an address in them. -/
def checkBrackets (authority : Text) : Except Refusal Unit :=
  if '[' ∈ authority then
    if ']' ∈ authority then checkAddress (bracketed authority) else .error .brackets
  else if ']' ∈ authority then .error .brackets
  else .ok ()

/-- The characters whose compatibility decomposition (NFKC) holds a slash, a question mark, a number
sign, an at sign or a colon. -/
def disguises : List Nat :=
  [0x2047, 0x2048, 0x2049, 0x2100, 0x2101, 0x2105, 0x2106, 0x2A74, 0xFE13, 0xFE16, 0xFE55, 0xFE56,
    0xFE5F, 0xFE6B, 0xFF03, 0xFF0F, 0xFF1A, 0xFF1F, 0xFF20]

/-- Checks that no delimiter of an authority stands there in another form. -/
def checkDelimiters (authority : Text) : Except Refusal Unit :=
  if authority.any fun c => decide (c.toNat ∈ disguises) then
    .error (.disguisedDelimiter authority)
  else .ok ()

/-- The head of a URL. -/
def readHead (url : Text) : Except Refusal Head := do
  let (scheme, rest) := cutScheme (cleaned url)
  let authority := authorityOf rest
  checkBrackets authority
  checkDelimiters authority
  return ⟨scheme, authority⟩

end AliasGate.Url
