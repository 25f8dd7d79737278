import AliasGate.ShortUrl.Database
import AliasGate.Storage.Records

/-!
# Backends

A table and a cache that carry out commands, and the sessions by which programs reach them. Changes
to rows wait in the session until they are committed. Which commands fail is planned ahead for each
kind of command.

* `Connection.execute` runs a program.
* `Storage.database` is the database that the programs on records make up.
-/

namespace AliasGate.Storage

/-- For each kind of command, which of the next ones fail; later ones do not. -/
abbrev Plan := Kind → List Bool

namespace Plan

/-- Nothing fails. -/
def never : Plan := fun _ => []

/-- The next commands of each kind fail, as many as given. -/
def first (counts : Kind → Nat) : Plan := fun k => List.replicate (counts k) true

/-- The next command of the kind fails. -/
def failsNext (p : Plan) (k : Kind) : Bool := (p k).headD false

/-- The plan after a command of a kind. -/
def after (p : Plan) (k : Kind) : Plan := fun k' => if k' = k then (p k).tail else p k'

end Plan

/-- Table and cache, and what is kept beside them. -/
structure Backend where
  table : Store
  cache : Keyed Text Text
  /-- The ids whose cache entries are not to be trusted, each once. -/
  distrusted : List Text
  plan : Plan

/-- Nothing stored. -/
def Backend.empty : Backend := ⟨[], [], [], Plan.never⟩

/-- A change to rows that is not committed yet. -/
inductive Change where
  | insert (id : Text) (s : ShortUrl)
  | erase (s : Selection)

/-- A backend with one session: the changes that wait in it, and the commands that it gave, each
with the note whether it failed by plan. -/
structure Connection where
  backend : Backend
  pending : List Change
  log : List (Command × Bool)

namespace Connection

/-- A new session. -/
def begin (b : Backend) : Connection := ⟨b, [], []⟩

/-! ## Rows -/

/-- A row can be written: the extension is a text. -/
def isEncodable (s : ShortUrl) : Bool := s.extension.all WideText.isText

/-- A table after a change. A row keeps the query as a JSON text in which surrogates are escaped, so
that pairs of them become characters. -/
def applyChange (table : Store) : Change → Except Fault Store
  | .insert id s =>
    if !isEncodable s then .error (.defect (.unencodable (s.extension.getD [])))
    else if id ∈ Keyed.keys table then
      .error (.failure (.backend "UNIQUE constraint failed".toList))
    else .ok (table ++ [(id, s.joinPairs)])
  | .erase s => .ok (table.filter fun row => !s.holds row)

/-- A table after several changes. -/
def applyChanges (table : Store) : List Change → Except Fault Store
  | [] => .ok table
  | c :: cs =>
    match applyChange table c with
    | .ok table => applyChanges table cs
    | .error fault => .error fault

/-! ## Commands -/

/-- Replaces the cache. -/
def withCache (c : Connection) (cache : Keyed Text Text) : Connection :=
  { c with backend := { c.backend with cache := cache } }

/-- Commits the pending changes, all or none. -/
def commit (c : Connection) : Except Fault Unit × Connection :=
  match applyChanges c.backend.table c.pending with
  | .ok table => (.ok (), { c with backend := { c.backend with table := table }, pending := [] })
  | .error fault => (.error fault, c)

/-- The effect of a command that does not fail by plan. -/
def effect (c : Connection) : (cmd : Command) → Except Fault cmd.Reply × Connection
  | .select s => (.ok (c.backend.table.filter s.holds), c)
  | .erase s => (.ok (), { c with pending := c.pending ++ [.erase s] })
  | .probe => (.ok (), c)
  | .commit => c.commit
  | .rollback => (.ok (), { c with pending := [] })
  | .cacheGet key => (.ok (Keyed.get? c.backend.cache key), c)
  | .cacheSet key value _ => (.ok (), c.withCache (Keyed.put c.backend.cache key value))
  | .cacheDelete keys => (.ok (), c.withCache (Keyed.without c.backend.cache keys))
  | .ping => (.ok (), c)

/-- A command fails by plan. -/
def failsNext (c : Connection) (cmd : Command) : Bool := cmd.kind?.any c.backend.plan.failsNext

/-- The connection after a command has been noted and its part of the plan is used up. -/
def noted (c : Connection) (cmd : Command) : Connection :=
  { c with
    log := c.log ++ [(cmd, c.failsNext cmd)]
    backend :=
      { c.backend with
        plan := cmd.kind?.elim c.backend.plan c.backend.plan.after } }

/-- The failure of a command by plan. -/
def planned (cmd : Command) : Fault :=
  .failure (.backend ((cmd.kind?.elim [] Kind.name) ++ " failed".toList))

/-- Carries out a command, unless it fails. -/
def carryOut (c : Connection) (cmd : Command) : Except Fault cmd.Reply × Connection :=
  if c.failsNext cmd then (.error (planned cmd), c.noted cmd) else (c.noted cmd).effect cmd

/-! ## Programs -/

/-- Changes the set of ids that are not trusted. -/
def mapDistrusted (c : Connection) (f : List Text → List Text) : Connection :=
  { c with backend := { c.backend with distrusted := f c.backend.distrusted } }

/-- Runs a program to its end. -/
def execute {α : Type} : Program α → Connection → Except Fault α × Connection
  | .done a, c => (.ok a, c)
  | .raise fault, c => (.error fault, c)
  | .command cmd next, c => execute (next (c.carryOut cmd).1) (c.carryOut cmd).2
  | .stage id s next, c => execute next { c with pending := c.pending ++ [.insert id s] }
  | .distrusted next, c => execute (next c.backend.distrusted) c
  | .distrust ids next, c =>
    execute next (c.mapDistrusted fun old => old ++ (ids.filter (· ∉ old)).eraseDups)
  | .trust ids next, c => execute next (c.mapDistrusted fun old => old.filter (· ∉ ids))

/-- A program as an action. -/
def run {α : Type} (p : Program α) : Action Connection α := Action.ofFunction (execute p)

end Connection

/-! ## The database -/

/-- The database behind a connection, with the seconds that cache entries live if there is a
cache. -/
def database (cache : Option Int) : Database Connection where
  lookup id := Connection.run (Storage.lookup cache id)
  find s := Connection.run (Storage.find s)
  insert id s := Connection.run (Storage.insert id s)
  delete user image id := Connection.run (Storage.delete cache user image id)
  isHealthy := Connection.run Storage.isHealthy

/-- How a row is shown: id and user as they are. -/
def describeRow (id user : Text) : Text :=
  "<ShortUrlRecord(short_url_id='".toList ++ id ++ "', user='".toList ++ user ++ "')>".toList

end AliasGate.Storage
