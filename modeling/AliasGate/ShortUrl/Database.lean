import AliasGate.Action
import AliasGate.ShortUrl.Basic

/-!
# Databases

What has to be known of a database in order to serve short URLs, the one that keeps its records in
memory, the commands that may be given to any of them, and the allocation of an id.

Ids come from a source (`IdSource`), which gives those of a script and after it counts, each number
written with a wanted count of letters and digits.
-/

namespace AliasGate

/-- The ids still in the script, and the number that comes after it. -/
structure IdSource where
  script : List Text
  next : Nat
  deriving DecidableEq, Repr

namespace IdSource

/-- The source that counts from zero after a script. -/
def ofScript (script : List Text) : IdSource := ⟨script, 0⟩

/-- The characters of ids, by their values as digits. -/
def alphabet : Text := "abcdefghijklmnopqrstuvwxyzABCDEFGHIJKLMNOPQRSTUVWXYZ0123456789".toList

/-- The character of a digit. -/
def digit (n : Nat) : Char := alphabet.getD (n % alphabet.length) 'a'

/-- The last digits of a number, as many as wanted. -/
def digits : Nat → Nat → Text
  | 0, _ => []
  | size + 1, n => digits size (n / alphabet.length) ++ [digit n]

/-- The next id of a positive length; those of the script come as they are. -/
def draw (length : Int) : Action IdSource Text := do
  if length ≤ 0 then Action.breakOff (.idLength length)
  else
    let source ← get
    match source.script with
    | id :: script =>
      set (⟨script, source.next⟩ : IdSource)
      pure id
    | [] =>
      set (⟨[], source.next + 1⟩ : IdSource)
      pure (digits length.toNat source.next)

end IdSource

/-! ## Databases -/

/-- The operations of a database with states `δ`. -/
structure Database (δ : Type) where
  /-- The short URL under an id. -/
  lookup : (id : Text) → Action δ (Option ShortUrl)
  /-- The id of an agreeing short URL. -/
  find : ShortUrl → Action δ (Option Text)
  /-- Stores a short URL under an id. -/
  insert : (id : Text) → ShortUrl → Action δ Unit
  /-- Deletes the short URLs of an image, or the one of them under an id, and counts them. -/
  delete : (user image : Text) → (id : Option Text) → Action δ Nat
  /-- The database can be reached. -/
  isHealthy : Action δ Bool

namespace Database

/-- The database that is a store in memory, with what it reports about itself. -/
def inMemory (healthy : Bool) : Database Store where
  lookup id := do return (← get).lookup? id
  find s := do return (← get).idOf? s
  insert id s := do
    let store ← get
    set (← Action.ofExcept (store.insert id s))
  delete user image id := do
    let store ← get
    set (store.erase user image id)
    return store.eraseCount user image id
  isHealthy := pure healthy

variable {δ α : Type}

/-! ## Commands -/

/-- An operation of a database with its arguments. -/
inductive Command where
  | lookup (id : Text)
  | find (s : ShortUrl)
  | insert (id : Text) (s : ShortUrl)
  | delete (user image : Text) (id : Option Text)
  | isHealthy

/-- The results of a command. -/
def Command.Reply : Command → Type
  | lookup _ => Option ShortUrl
  | find _ => Option Text
  | insert _ _ => Unit
  | delete _ _ _ => Nat
  | isHealthy => Bool

/-- Carries out a command. -/
def carryOut (db : Database δ) : (c : Command) → Action δ c.Reply
  | .lookup id => db.lookup id
  | .find s => db.find s
  | .insert id s => db.insert id s
  | .delete user image id => db.delete user image id
  | .isHealthy => db.isHealthy

/-! ## Allocation -/

/-- An action on the database beside a source of ids. -/
def onDatabase (a : Action δ α) : Action (δ × IdSource) α :=
  a.onPart (·.1) fun s d => (d, s.2)

/-- An action on the source of ids beside a database. -/
def onIds (a : Action IdSource α) : Action (δ × IdSource) α :=
  a.onPart (·.2) fun s ids => (s.1, ids)

/-- How many ids are drawn before giving up. -/
def maxDraws : Nat := 10

/-- Draws ids until one is free and stores the short URL under it. -/
def allocateFresh (db : Database δ) (length : Int) (s : ShortUrl) :
    Nat → Action (δ × IdSource) Text
  | 0 => Action.fail .noFreeId
  | draws + 1 => do
    let id ← onIds (IdSource.draw length)
    match ← onDatabase (db.lookup id) with
    | none =>
      onDatabase (db.insert id s)
      pure id
    | some _ => allocateFresh db length s draws

/-- The id of an agreeing short URL if there is one, else a fresh id under which it is stored. -/
def allocate (db : Database δ) (length : Int) (s : ShortUrl) : Action (δ × IdSource) Text := do
  match ← onDatabase (db.find s) with
  | some id => pure id
  | none => allocateFresh db length s maxDraws

end Database

end AliasGate
