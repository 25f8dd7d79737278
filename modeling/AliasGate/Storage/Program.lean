import AliasGate.Failure
import AliasGate.ShortUrl.Basic

/-!
# Commands and programs

What is asked of the table of short URLs and of the cache in front of it. Every command waits for
its reply and may fail, except that taking changes back always succeeds.

A program gives commands and goes on with their replies. Between two commands it may stage rows and
change the set of ids whose cache entries are not to be trusted; nothing else can happen meanwhile.
-/

namespace AliasGate.Storage

/-- A condition on rows: the id, the image with its user, or both. -/
structure Selection where
  id : Option Text
  image : Option (Text × Text)
  deriving DecidableEq, Repr

namespace Selection

/-- The row with an id. -/
def ofId (id : Text) : Selection := ⟨some id, none⟩

/-- The rows of an image, or the one of them with the id. -/
def ofImage (user image : Text) (id : Option Text) : Selection := ⟨id, some (user, image)⟩

/-- A row is selected. -/
def holds (s : Selection) (row : Text × ShortUrl) : Bool :=
  s.id.all (row.1 == ·) && s.image.all fun i => row.2.isOf i.1 i.2

end Selection

/-- What is asked of table and cache. -/
inductive Command where
  | select (s : Selection)
  | erase (s : Selection)
  /-- Asks whether the table can be reached. -/
  | probe
  | commit
  | rollback
  | cacheGet (key : Text)
  | cacheSet (key value : Text) (seconds : Int)
  | cacheDelete (keys : List Text)
  /-- Asks whether the cache can be reached. -/
  | ping
  deriving DecidableEq, Repr

/-- The kinds of commands that can fail. -/
inductive Kind where
  | execute
  | commit
  | get
  | set
  | delete
  | ping
  deriving DecidableEq, Repr

namespace Kind

/-- All kinds. -/
def all : List Kind := [execute, commit, get, set, delete, ping]

/-- The name of a kind. -/
def name : Kind → Text
  | execute => "execute".toList
  | commit => "commit".toList
  | get => "get".toList
  | set => "set".toList
  | delete => "delete".toList
  | ping => "ping".toList

/-- The kind with a name. -/
def ofName? (s : Text) : Option Kind := all.find? fun k => k.name = s

end Kind

namespace Command

/-- The kind of a command; taking changes back has none. -/
def kind? : Command → Option Kind
  | select _ => some .execute
  | erase _ => some .execute
  | probe => some .execute
  | commit => some .commit
  | rollback => none
  | cacheGet _ => some .get
  | cacheSet _ _ _ => some .set
  | cacheDelete _ => some .delete
  | ping => some .ping

/-- What a command replies if it does not fail. -/
abbrev Reply : Command → Type
  | select _ => List (Text × ShortUrl)
  | cacheGet _ => Option Text
  | _ => Unit

end Command

/-! ## Programs -/

/-- A program with results `α`. -/
inductive Program (α : Type) where
  | done (a : α)
  | raise (fault : Fault)
  | command (c : Command) (next : Except Fault c.Reply → Program α)
  | stage (id : Text) (s : ShortUrl) (next : Program α)
  | distrusted (next : List Text → Program α)
  | distrust (ids : List Text) (next : Program α)
  | trust (ids : List Text) (next : Program α)

namespace Program

variable {α β : Type}

/-- Goes on with the result of a program. -/
def bind : Program α → (α → Program β) → Program β
  | done a, f => f a
  | raise fault, _ => raise fault
  | command c next, f => command c fun reply => (next reply).bind f
  | stage id s next, f => stage id s (next.bind f)
  | distrusted next, f => distrusted fun ids => (next ids).bind f
  | distrust ids next, f => distrust ids (next.bind f)
  | trust ids next, f => trust ids (next.bind f)

instance : Monad Program where
  pure := done
  bind := bind

/-- Gives one command. -/
def give (c : Command) : Program (Except Fault c.Reply) := command c done

/-- Gives one command, and ends if it fails. -/
def demand (c : Command) : Program c.Reply :=
  command c fun
    | .ok reply => done reply
    | .error fault => raise fault

/-- Gives one command. If it fails, the changes of the session are taken back first; only what is no
failure passes at once. -/
def demandOrRollback (c : Command) : Program c.Reply :=
  command c fun
    | .ok reply => done reply
    | .error (.failure f) => command .rollback fun _ => raise (.failure f)
    | .error fault => raise fault

/-- The ids whose cache entries are not to be trusted. -/
def distrustedIds : Program (List Text) := distrusted done

end Program

end AliasGate.Storage
