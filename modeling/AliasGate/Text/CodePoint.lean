import AliasGate.Text.Basic

/-!
# Code points

A JSON string may hold half of a surrogate pair without the other half. Such a string is no text;
it is a list of code points, each a character or a lone surrogate.
-/

namespace AliasGate

/-- A character, or a lone surrogate given by its distance from U+D800. -/
inductive CodePoint where
  | char (c : Char)
  | surrogate (offset : Fin 2048)
  deriving DecidableEq, Repr

/-- A text that may hold lone surrogates. -/
abbrev WideText := List CodePoint

namespace CodePoint

/-- The number of a code point. -/
def toNat : CodePoint → Nat
  | char c => c.toNat
  | surrogate offset => 0xD800 + offset

/-- The code point with a number below 0x110000. -/
def ofNat? (n : Nat) : Option CodePoint :=
  if h : n.isValidChar then some (char (Char.ofNatAux n h))
  else if h : 0xD800 ≤ n ∧ n < 0xE000 then some (surrogate ⟨n - 0xD800, by omega⟩)
  else none

/-- The character, if the code point is one. -/
def char? : CodePoint → Option Char
  | char c => some c
  | surrogate _ => none

end CodePoint

namespace WideText

/-- A text as code points. -/
def ofText (s : Text) : WideText := s.map .char

/-- The text, if there is no lone surrogate. -/
def toText? (s : WideText) : Option Text := s.mapM CodePoint.char?

/-- No lone surrogate. -/
def isText (s : WideText) : Bool := s.all fun c => c.char?.isSome

/-- The words in which an encoder refuses what is no text: where its first lone surrogates stand, one
or several in a row. -/
def refusal (s : WideText) : Text :=
  let start := (s.takeWhile fun c => c.char?.isSome).length
  match (s.drop start).takeWhile fun c => c.char?.isNone with
  | [c] =>
    "'utf-8' codec can't encode character '\\u".toList ++ Text.hex 4 c.toNat ++
      "' in position ".toList ++ Text.ofNat start ++ ": surrogates not allowed".toList
  | run =>
    "'utf-8' codec can't encode characters in position ".toList ++ Text.ofNat start ++
      '-' :: Text.ofNat (start + run.length - 1) ++ ": surrogates not allowed".toList

/-- A text in which each lone surrogate is shown by three replacement characters, one for each
byte that would encode it. -/
def toTextLossy (s : WideText) : Text :=
  s.flatMap fun c =>
    match c with
    | .char c => [c]
    | .surrogate _ => List.replicate 3 (Char.ofNat 0xFFFD)

/-- Joins a high surrogate with a low one right after it to the character that they encode. -/
def joinPairs : WideText → WideText
  | [] => []
  | .surrogate u :: .surrogate v :: s =>
    if u.val < 1024 ∧ 1024 ≤ v.val then
      .char (Char.ofNat (0x10000 + u.val * 1024 + (v.val - 1024))) :: joinPairs s
    else .surrogate u :: joinPairs (.surrogate v :: s)
  | c :: s => c :: joinPairs s

/-- Applies a function on texts to each longest run of characters; lone surrogates stay. The first
list collects the run in progress, last character first. -/
def onRunsFrom (f : Text → Text) : Text → WideText → WideText
  | run, [] => ofText (f run.reverse)
  | run, .char c :: s => onRunsFrom f (c :: run) s
  | run, .surrogate n :: s => ofText (f run.reverse) ++ .surrogate n :: onRunsFrom f [] s

/-- Applies a function on texts to each longest run of characters; lone surrogates stay. -/
def onRuns (f : Text → Text) (s : WideText) : WideText := onRunsFrom f [] s

end WideText

end AliasGate
