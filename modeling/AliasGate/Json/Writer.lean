import AliasGate.Json.Basic
import AliasGate.Number.Shortest

/-!
# Writing JSON

Compact texts without white space, members in order, characters beyond ASCII as they are. The
formats differ in their numbers, in what becomes of numbers that JSON has no text for, and in how
deep a value may nest.
-/

namespace AliasGate.Json

/-- Why a value has no text. -/
inductive Unwritable where
  | nonFinite
  /-- What was to be encoded holds a lone surrogate. -/
  | loneSurrogate (text : WideText)
  | tooDeep
  deriving DecidableEq, Repr

namespace Unwritable

/-- The name of the error that the reason leads to. -/
def name : Unwritable → Text
  | nonFinite => "ValueError".toList
  | loneSurrogate _ => "UnicodeEncodeError".toList
  | tooDeep => "ValueError".toList

/-- The words of that error. -/
def message : Unwritable → Text
  | nonFinite => "Out of range float values are not JSON compliant".toList
  | loneSurrogate text => WideText.refusal text
  | tooDeep => "Circular reference detected (depth exceeded)".toList

end Unwritable

/-- The decisions of a text format. -/
structure Format where
  layout : NumberLayout
  /-- The text for a number that is not finite, if there is one. -/
  nonFinite : Option Text
  /-- The greatest number of lists and objects around a value, if there is one. -/
  nesting : Option Nat
  /-- Strings are encoded one by one, not the text as a whole. -/
  encodesStrings : Bool

/-- The format of answers to clients: numbers that are not finite are refused. -/
def Format.answer : Format := ⟨.answer, none, none, false⟩

/-- The format of stored records: numbers that are not finite become `null`. -/
def Format.stored : Format := ⟨.stored, some "null".toList, some 256, true⟩

/-- A character inside a string. -/
def escapeChar (c : Char) : Text :=
  if c = '"' ∨ c = '\\' then ['\\', c]
  else if c.toNat = 0x08 then ['\\', 'b']
  else if c.toNat = 0x0C then ['\\', 'f']
  else if c = '\n' then ['\\', 'n']
  else if c = '\r' then ['\\', 'r']
  else if c = '\t' then ['\\', 't']
  else if c.toNat < 0x20 then '\\' :: 'u' :: Text.hex 4 c.toNat
  else [c]

/-- A code point inside a string. -/
def escape : CodePoint → WideText
  | .char c => WideText.ofText (escapeChar c)
  | .surrogate n => [.surrogate n]

/-- A string between quotes. -/
def writeString (s : WideText) : WideText := .char '"' :: s.flatMap escape ++ [.char '"']

/-- A number. -/
def writeNumber (f : Format) : Double → Option Text
  | .finite negative magnitude => some (f.layout.finite negative magnitude)
  | _ => f.nonFinite

mutual

/-- A value, unless a number in it has no text. -/
def writeWide (f : Format) : Json → Option WideText
  | .null => some (WideText.ofText "null".toList)
  | .bool true => some (WideText.ofText "true".toList)
  | .bool false => some (WideText.ofText "false".toList)
  | .int n => some (WideText.ofText (Text.ofInt n))
  | .number x => (writeNumber f x).map WideText.ofText
  | .str s => some (writeString s)
  | .arr elements =>
    (writeElements f elements).map fun s => .char '[' :: s ++ [.char ']']
  | .obj members =>
    (writeMembers f members).map fun s => .char '{' :: s ++ [.char '}']

/-- The elements of a list with commas between them. -/
def writeElements (f : Format) : List Json → Option WideText
  | [] => some []
  | j :: js =>
    match writeWide f j, writeElements f js with
    | some s, some t => some (if js.isEmpty then s else s ++ .char ',' :: t)
    | _, _ => none

/-- The members of an object with commas between them. -/
def writeMembers (f : Format) : List (WideText × Json) → Option WideText
  | [] => some []
  | (k, j) :: ms =>
    match writeWide f j, writeMembers f ms with
    | some s, some t =>
      some (writeString k ++ .char ':' :: if ms.isEmpty then s else s ++ .char ',' :: t)
    | _, _ => none

end

mutual

/-- The strings of a value, names included, in the order of writing. -/
def strings : Json → List WideText
  | .str s => [s]
  | .arr elements => stringsOfElements elements
  | .obj members => stringsOfMembers members
  | _ => []

/-- The strings of the elements. -/
def stringsOfElements : List Json → List WideText
  | [] => []
  | j :: js => j.strings ++ stringsOfElements js

/-- The strings of the members. -/
def stringsOfMembers : List (WideText × Json) → List WideText
  | [] => []
  | (k, j) :: ms => k :: (j.strings ++ stringsOfMembers ms)

end

/-- What of a value with a written form could not be encoded. -/
def unencodable (f : Format) (j : Json) (written : WideText) : WideText :=
  if f.encodesStrings then (j.strings.find? fun s => !s.isText).getD written else written

/-- The text of a value. -/
def write (f : Format) (j : Json) : Except Unwritable Text :=
  if f.nesting.any (· < j.depth) then .error .tooDeep
  else
    match writeWide f j with
    | none => .error .nonFinite
    | some s =>
      match WideText.toText? s with
      | none => .error (.loneSurrogate (unencodable f j s))
      | some s => .ok s

end AliasGate.Json
