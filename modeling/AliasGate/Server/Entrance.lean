import AliasGate.Http.Method
import AliasGate.Json.Basic
import AliasGate.Text.Basic

/-!
# Entrances

Where a request goes before anything is done for it: to the health report, to the dispatcher, or
back to the client. All paths without a line feed lead to the dispatcher, but the last character of
a path may be one. The health report shows the server and the parts that it depends on.
-/

namespace AliasGate.Server

/-- Where a request goes. -/
inductive Entrance where
  | health
  | dispatcher
  | wrongMethod (allowed : List Text)
  /-- The path would lead to the dispatcher without the slashes at its end, or with one. -/
  | elsewhere
  | nowhere
  deriving DecidableEq, Repr

namespace Entrance

/-- The path of the health report. -/
def isHealthPath (path : Text) : Bool :=
  (Text.orBeforeNewline (fun s => if s = "/health".toList then some () else none) path).isSome

/-- A path that leads to the dispatcher. -/
def isPath (path : Text) : Bool :=
  match path with
  | '/' :: rest => ((Text.before? ['\n'] rest).getD rest).all (· != '\n')
  | _ => false

/-- The names of the methods of the dispatcher, in alphabetical order. -/
def methodNames : List Text :=
  (Http.Method.all.map (·.name)).mergeSort fun s t => !decide (t < s)

/-- The path without the slashes at its end, or with a slash if it has none there. -/
def alternative (path : Text) : Text :=
  if path.getLast? = some '/' then Text.dropEndWhile (· == '/') path else path ++ ['/']

/-- The methods that a path allows. -/
def allowedAt (path : Text) : List Text :=
  if isHealthPath path then [Http.Method.get.name] else methodNames

/-- Where a request with a method and a decoded path goes. -/
def of (method path : Text) : Entrance :=
  if !isPath path then (if isPath (alternative path) then elsewhere else nowhere)
  else
    match Http.Method.ofName? method with
    | none => wrongMethod (allowedAt path)
    | some .get => if isHealthPath path then health else dispatcher
    | some _ => dispatcher

end Entrance

end AliasGate.Server

/-! ## Health -/

namespace AliasGate

/-- A part works, or it does not. -/
inductive Health where
  | healthy
  | unhealthy
  deriving DecidableEq, Repr

namespace Health

/-- The name of a state of health. -/
def name : Health → Text
  | healthy => "healthy".toList
  | unhealthy => "unhealthy".toList

/-- The state with a name; any other text means that something is wrong. -/
def ofName (s : Text) : Health := if s = healthy.name then healthy else unhealthy

/-- The state of a part that works or does not. -/
def ofBool (works : Bool) : Health := if works then healthy else unhealthy

/-- Healthy are only parts that all are. -/
def both : Health → Health → Health
  | healthy, healthy => healthy
  | _, _ => unhealthy

/-- The report on the database and the cache. -/
def report (database cache : Health) : Json :=
  Json.object [("status".toList, .text (both database cache).name),
    ("database".toList, .text database.name), ("cache".toList, .text cache.name)]

end Health

end AliasGate
