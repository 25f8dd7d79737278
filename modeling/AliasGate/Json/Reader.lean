import AliasGate.Bytes.Wide
import AliasGate.Json.Basic
import AliasGate.Text.Basic

/-!
# Reading JSON

A reader for RFC 8259 texts that also takes the names `NaN`, `Infinity` and `-Infinity`. Escaped
surrogates are joined in pairs; whether a lone one is accepted, how many digits a number may have
and how deep a text may nest is up to the dialect. All limits hold while a text is read, so they
also hold for members that a later one of the same name replaces. Nesting is counted as lists and
objects are entered.

The productions return what they read together with the rest of the text. Their recursion is
bounded by a count that `Json.read` takes from the length of the text.

A document (`Json.readDocument`) is bytes. A byte order mark tells how they encode a text; without
one the zeros among the first four bytes do, since a document begins with ASCII characters.
-/

namespace AliasGate.Json

/-- What a reader accepts beyond the grammar. -/
structure Dialect where
  /-- The greatest number of digits of a whole number. -/
  digits : Nat
  /-- That number also limits the digits before a point or an exponent. -/
  limitsFractions : Bool
  /-- The greatest number of lists and objects that are entered one in another. -/
  nesting : Nat
  /-- Empty lists and objects are entered as well. -/
  countsEmpty : Bool
  /-- Strings may hold lone surrogates. -/
  loneSurrogates : Bool

namespace Dialect

/-- The dialect of request bodies and settings. How deep they may nest depends on the room that is
left on the stack of whoever reads them. -/
def received (room : Nat) : Dialect := ⟨4300, false, room, true, true⟩

/-- The dialect of stored records. -/
def stored : Dialect := ⟨4300, true, 200, false, false⟩

/-- A list or object can be entered that has a number of them around it. -/
def enters (d : Dialect) (level : Nat) (isEmpty : Bool) : Bool :=
  level < d.nesting || isEmpty && !d.countsEmpty

end Dialect

/-- What values stand in. -/
inductive Container where
  | list
  | object
  deriving DecidableEq, Repr

/-- Why a text has no value. -/
inductive Unreadable where
  /-- The text breaks the grammar, or a limit other than that on nesting. -/
  | malformed
  /-- A list or object stands inside of too many others. -/
  | tooDeep (container : Container)
  deriving DecidableEq, Repr

/-! ## Tokens -/

/-- White space between tokens. -/
def isSpace (c : CodePoint) : Bool :=
  c == .char ' ' || c == .char '\t' || c == .char '\n' || c == .char '\r'

/-- The text after white space. -/
def skipSpace (s : WideText) : WideText := s.dropWhile isSpace

/-- The digit that a code point is. -/
def digit? : CodePoint → Option Char
  | .char c => if Text.isAsciiDigit c then some c else none
  | .surrogate _ => none

/-- The digits at the beginning, and the rest. -/
def digits : WideText → Text × WideText
  | [] => ([], [])
  | c :: s =>
    match digit? c with
    | some d => (d :: (digits s).1, (digits s).2)
    | none => ([], c :: s)

/-- The number that digits write. -/
def natOfDigits (ds : Text) : Nat := ds.foldl (fun n c => n * 10 + (c.toNat - '0'.toNat)) 0

/-- A zero alone, or digits that begin with another digit. -/
def wholePart? (s : WideText) : Option (Text × WideText) :=
  match digits s with
  | ([], _) => none
  | (d :: ds, rest) => if d = '0' then some (['0'], s.drop 1) else some (d :: ds, rest)

/-- A point and at least one digit, or nothing. -/
def fraction (s : WideText) : Option Text × WideText :=
  match s with
  | [] => (none, s)
  | c :: r =>
    if c = .char '.' then
      match digits r with
      | ([], _) => (none, s)
      | (ds, rest) => (some ds, rest)
    else (none, s)

/-- A sign, if there is one: whether it is a minus. -/
def sign (s : WideText) : Bool × WideText :=
  match s with
  | [] => (false, s)
  | c :: r =>
    if c = .char '-' then (true, r)
    else if c = .char '+' then (false, r)
    else (false, s)

/-- An exponent of at least one digit, or nothing. -/
def exponent (s : WideText) : Option Int × WideText :=
  match s with
  | [] => (none, s)
  | c :: r =>
    if c = .char 'e' ∨ c = .char 'E' then
      let (negative, r) := sign r
      match digits r with
      | ([], _) => (none, s)
      | (ds, rest) =>
        (some (if negative then -(natOfDigits ds : Int) else natOfDigits ds), rest)
    else (none, s)

/-- The value of a number from its parts. -/
def numberOf (d : Dialect) (negative : Bool) (whole : Text) (frac : Option Text)
    (exp : Option Int) : Option Json :=
  match frac, exp with
  | none, none =>
    if whole.length ≤ d.digits then
      let n : Int := natOfDigits whole
      some (.int (if negative then -n else n))
    else none
  | _, _ =>
    if d.limitsFractions && !decide (whole.length ≤ d.digits) then none
    else
      let fs := frac.getD []
      some (.number (.ofDecimal negative (natOfDigits (whole ++ fs)) (exp.getD 0 - fs.length)))

/-- A number after its sign. -/
def number? (d : Dialect) (negative : Bool) (s : WideText) : Option (Json × WideText) :=
  match wholePart? s with
  | none => none
  | some (whole, s) =>
    let (frac, s) := fraction s
    let (exp, s) := exponent s
    (numberOf d negative whole frac exp).map fun j => (j, s)

/-- A name at the beginning of the text. -/
def named? (name : String) (value : Json) (s : WideText) : Option (Json × WideText) :=
  (Text.after? (WideText.ofText name.toList) s).map fun rest => (value, rest)

/-- A value that is neither a string, a list nor an object. -/
def scalar? (d : Dialect) (s : WideText) : Option (Json × WideText) :=
  named? "null" .null s <|> named? "true" (.bool true) s <|> named? "false" (.bool false) s <|>
    named? "NaN" (.number .nan) s <|> named? "Infinity" (.number (.infinite false)) s <|>
    named? "-Infinity" (.number (.infinite true)) s <|>
    match s with
    | [] => none
    | c :: r => if c = .char '-' then number? d true r else number? d false s

/-! ## Strings -/

/-- A part of a string: a code point as it stands, or an escaped UTF-16 unit. -/
inductive Piece where
  | point (c : CodePoint)
  | unit (n : Nat)

/-- What a letter after a backslash stands for. -/
def escaped? (c : Char) : Option Char :=
  if c = '"' ∨ c = '\\' ∨ c = '/' then some c
  else if c = 'b' then some (Char.ofNat 0x08)
  else if c = 'f' then some (Char.ofNat 0x0C)
  else if c = 'n' then some '\n'
  else if c = 'r' then some '\r'
  else if c = 't' then some '\t'
  else none

/-- The unit that four hexadecimal digits write. -/
def unit? (a b c d : CodePoint) : Option Nat :=
  [a, b, c, d].foldlM
    (fun n p => (p.char?.bind Text.hexValue?).map fun x => n * 16 + x) 0

/-- The parts of a string up to its closing quote, and what follows it. -/
def pieces : WideText → Option (List Piece × WideText)
  | [] => none
  | .surrogate n :: s => (pieces s).map fun (ps, r) => (.point (.surrogate n) :: ps, r)
  | .char c :: s =>
    if c = '"' then some ([], s)
    else if c.toNat < 0x20 then none
    else if c = '\\' then
      match s with
      | .char 'u' :: w :: x :: y :: z :: s =>
        (unit? w x y z).bind fun n => (pieces s).map fun (ps, r) => (.unit n :: ps, r)
      | .char e :: s =>
        (escaped? e).bind fun e => (pieces s).map fun (ps, r) => (.point (.char e) :: ps, r)
      | _ => none
    else (pieces s).map fun (ps, r) => (.point (.char c) :: ps, r)

/-- The code point of a unit on its own. -/
def lone (n : Nat) : CodePoint := (CodePoint.ofNat? n).getD (.char (Char.ofNat 0xFFFD))

/-- Joins an escaped high surrogate with an escaped low one right after it. -/
def assemble : List Piece → WideText
  | [] => []
  | .point c :: ps => c :: assemble ps
  | .unit u :: .unit v :: ps =>
    if 0xD800 ≤ u ∧ u < 0xDC00 ∧ 0xDC00 ≤ v ∧ v < 0xE000 then
      lone (0x10000 + (u - 0xD800) * 0x400 + (v - 0xDC00)) :: assemble ps
    else lone u :: assemble (.unit v :: ps)
  | .unit u :: ps => lone u :: assemble ps

/-- A string after its opening quote. -/
def string? (d : Dialect) (s : WideText) : Option (WideText × WideText) :=
  match pieces s with
  | none => none
  | some (ps, r) =>
    let t := assemble ps
    if d.loneSurrogates || WideText.isText t then some (t, r) else none

/-! ## Values -/

/-- What a production read and the rest of the text, or why the text has no value. -/
abbrev Reading (α : Type) := Except Unreadable (α × WideText)

/-- What was read, turned into something else. -/
def Reading.map {α β : Type} (f : α → β) : Reading α → Reading β
  | .ok (a, r) => .ok (f a, r)
  | .error e => .error e

/-- A token, or a malformed text. -/
def Reading.ofToken {α : Type} : Option (α × WideText) → Reading α
  | some found => .ok found
  | none => .error .malformed

mutual

/-- A value with a number of lists and objects around it. -/
def value (d : Dialect) : Nat → Nat → WideText → Reading Json
  | 0, _, _ => .error .malformed
  | fuel + 1, level, s =>
    match s with
    | .char '"' :: r => (Reading.ofToken (string? d r)).map .str
    | .char '[' :: r =>
      match skipSpace r with
      | .char ']' :: r =>
        if d.enters level true then .ok (.arr [], r) else .error (.tooDeep .list)
      | r =>
        if d.enters level false then (elements d fuel (level + 1) r).map .arr
        else .error (.tooDeep .list)
    | .char '{' :: r =>
      match skipSpace r with
      | .char '}' :: r =>
        if d.enters level true then .ok (.obj [], r) else .error (.tooDeep .object)
      | r =>
        if d.enters level false then
          (members d fuel (level + 1) r).map fun ms => .obj (Keyed.ofPairs ms)
        else .error (.tooDeep .object)
    | s => Reading.ofToken (scalar? d s)
  termination_by structural fuel => fuel

/-- The elements of a list up to its closing bracket; there is at least one. -/
def elements (d : Dialect) : Nat → Nat → WideText → Reading (List Json)
  | 0, _, _ => .error .malformed
  | fuel + 1, level, s =>
    match value d fuel level s with
    | .error e => .error e
    | .ok (j, r) =>
      match skipSpace r with
      | .char ',' :: r => (elements d fuel level (skipSpace r)).map (j :: ·)
      | .char ']' :: r => .ok ([j], r)
      | _ => .error .malformed
  termination_by structural fuel => fuel

/-- The members of an object up to its closing brace; there is at least one. -/
def members (d : Dialect) : Nat → Nat → WideText → Reading (List (WideText × Json))
  | 0, _, _ => .error .malformed
  | fuel + 1, level, s =>
    match s with
    | .char '"' :: r =>
      match string? d r with
      | none => .error .malformed
      | some (k, r) =>
        match skipSpace r with
        | .char ':' :: r =>
          match value d fuel level (skipSpace r) with
          | .error e => .error e
          | .ok (j, r) =>
            match skipSpace r with
            | .char ',' :: r => (members d fuel level (skipSpace r)).map ((k, j) :: ·)
            | .char '}' :: r => .ok ([(k, j)], r)
            | _ => .error .malformed
        | _ => .error .malformed
    | _ => .error .malformed
  termination_by structural fuel => fuel

end

/-- The value that a whole text writes. -/
def read (d : Dialect) (s : WideText) : Except Unreadable Json :=
  match value d (2 * s.length + 2) 0 (skipSpace s) with
  | .error e => .error e
  | .ok (j, r) => if skipSpace r = [] then .ok j else .error .malformed

/-! ## Documents -/

/-- How bytes encode a text. -/
inductive Encoding where
  | utf8
  | utf16 (order : ByteOrder)
  | utf32 (order : ByteOrder)
  deriving DecidableEq

/-- The code points of bytes in an encoding. -/
def Encoding.decode? : Encoding → Bytes → Option WideText
  | utf8, s => Utf8.decodeWide? s
  | utf16 order, s => Utf16.decodeWide? order s
  | utf32 order, s => Utf32.decodeWide? order s

/-- The byte order marks, the longer ones first. -/
def marks : List (Bytes × Encoding) :=
  [([0x00, 0x00, 0xFE, 0xFF], .utf32 .big), ([0xFF, 0xFE, 0x00, 0x00], .utf32 .little),
    ([0xFE, 0xFF], .utf16 .big), ([0xFF, 0xFE], .utf16 .little), ([0xEF, 0xBB, 0xBF], .utf8)]

/-- The encoding that the zeros among the first bytes suggest. -/
def guess : Bytes → Encoding
  | a :: b :: c :: d :: _ =>
    if a = 0 then (if b = 0 then .utf32 .big else .utf16 .big)
    else if b = 0 then (if c = 0 ∧ d = 0 then .utf32 .little else .utf16 .little)
    else .utf8
  | [a, b] => if a = 0 then .utf16 .big else if b = 0 then .utf16 .little else .utf8
  | _ => .utf8

/-- The code points of a document without its byte order mark. -/
def decode? (s : Bytes) : Option WideText :=
  match marks.findSome? fun m => (Text.after? m.1 s).map fun rest => (m.2, rest) with
  | some (encoding, rest) => encoding.decode? rest
  | none => (guess s).decode? s

/-- The value of a document. -/
def readDocument (d : Dialect) (s : Bytes) : Except Unreadable Json :=
  match decode? s with
  | some s => read d s
  | none => .error .malformed

end AliasGate.Json
