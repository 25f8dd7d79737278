import AliasGate.ShortUrl.Reader
import AliasGate.Storage.Program

/-!
# Records

Short URLs as rows of a table, with a cache of written records in front of it for look-ups by id.

* `lookup` asks the cache first and fills it from the table.
* `delete` evicts cache entries before and after the rows are gone. Ids whose entries could not be
  evicted are not looked up in the cache until an eviction succeeds.

All programs take the number of seconds that cache entries live, or nothing if there is no cache.
-/

namespace AliasGate.Storage

open Program

/-- The key of a cache entry. -/
def cacheKey (id : Text) : Text := "shorturl:".toList ++ id

/-- How often an eviction is attempted. -/
def evictionAttempts : Nat := 3

/-- Attempts to delete cache entries until it succeeds. -/
def deleteEntries (keys : List Text) : Nat → Program Bool
  | 0 => pure false
  | attempts + 1 => do
    match ← give (.cacheDelete keys) with
    | .ok () => pure true
    | .error _ => deleteEntries keys attempts

/-- Evicts the entries of ids. Afterwards the ids are trusted if that succeeded, and distrusted if
it did not. -/
def evict (cache : Option Int) (ids : List Text) : Program Bool :=
  if cache = none ∨ ids = [] then pure true
  else do
    if ← deleteEntries (ids.map cacheKey) evictionAttempts then
      trust ids (pure true)
    else distrust ids (pure false)

/-- The cache, if the entry of an id can be trusted now. -/
def trustedCache (cache : Option Int) (id : Text) : Program (Option Int) :=
  match cache with
  | none => pure none
  | some seconds => do
    if id ∈ (← distrustedIds) then
      if ← evict cache [id] then pure (some seconds) else pure none
    else pure (some seconds)

/-- Writes a record to the cache. -/
def fillCache (seconds : Int) (id : Text) (s : ShortUrl) : Program Unit :=
  match s.written with
  | .ok text => demand (.cacheSet (cacheKey id) text seconds)
  | .error reason => raise (.defect (.unwritable reason))

/-- Looks an id up in the table, and fills the cache if there is one. -/
def lookupRow (cache : Option Int) (id : Text) : Program (Option ShortUrl) := do
  match ← demand (.select (.ofId id)) with
  | [] => pure none
  | (_, s) :: _ =>
    match cache with
    | none => pure (some s)
    | some seconds => do
      fillCache seconds id s
      pure (some s)

/-- The short URL of a cache entry. -/
def readEntry (text : Text) : Program ShortUrl :=
  match ShortUrl.ofStored (WideText.ofText text) with
  | .ok s => pure s
  | .error refusal => raise (.defect refusal.defect)

/-- The short URL under an id. An empty cache entry counts as none. -/
def lookup (cache : Option Int) (id : Text) : Program (Option ShortUrl) := do
  let cache ← trustedCache cache id
  if cache = none then lookupRow none id
  else
    match ← demand (.cacheGet (cacheKey id)) with
    | some (c :: text) => some <$> readEntry (c :: text)
    | _ => lookupRow cache id

/-- The id of the first agreeing short URL of the same image. -/
def find (s : ShortUrl) : Program (Option Text) := do
  let rows ← demand (.select (.ofImage s.user s.image none))
  pure ((rows.find? fun row => row.2.agrees s).map (·.1))

/-- Stores a short URL under an id. -/
def insert (id : Text) (s : ShortUrl) : Program Unit :=
  stage id s (demandOrRollback .commit)

/-- Deletes the rows of an image, or the one with the id, and counts them. -/
def delete (cache : Option Int) (user image : Text) (id : Option Text) : Program Nat := do
  let rows ← demandOrRollback (.select (.ofImage user image id))
  let ids := rows.map (·.1)
  if ids = [] then pure 0
  else do
    let _ ← evict cache ids
    demandOrRollback (.erase (.ofImage user image id))
    demandOrRollback .commit
    let _ ← evict cache ids
    pure ids.length

/-- The table can be reached. -/
def isHealthy : Program Bool := do
  match ← give .probe with
  | .ok () => pure true
  | .error _ => pure false

end AliasGate.Storage
