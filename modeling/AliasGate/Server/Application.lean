import AliasGate.Dispatch.Dispatcher
import AliasGate.Server.Arrival
import AliasGate.Server.Entrance
import AliasGate.Storage.Backend

/-!
# The application

The server from arrival to answer: it is started with settings, keeps short URLs in memory or behind
a session per request, and sends what the dispatcher answers as JSON.

* `Server.start` prepares it, or tells why it cannot.
* `Server.answer` answers an arrival and gives the state after it.
-/

namespace AliasGate.Server

/-! ## State -/

/-- Where the short URLs are. -/
inductive Holdings where
  | memory (store : Store)
  | sql (backend : Storage.Backend)

/-- What outlives a request. -/
structure State where
  holdings : Holdings
  ids : IdSource
  metrics : Metrics

namespace State

/-- Nothing stored. -/
def initial (settings : Settings) (ids : IdSource) : State where
  holdings :=
    match settings.backend with
    | .memory => .memory []
    | .sql => .sql Storage.Backend.empty
  ids := ids
  metrics := Metrics.zero

/-- The state with a plan of failing commands; nothing fails in memory. -/
def withPlan (s : State) (plan : Storage.Plan) : State :=
  match s.holdings with
  | .memory _ => s
  | .sql backend => { s with holdings := .sql { backend with plan := plan } }

/-- The content of the cache. -/
def cache (s : State) : Keyed Text Text :=
  match s.holdings with
  | .memory _ => []
  | .sql backend => backend.cache

end State

/-- A server that was started. -/
structure Running where
  settings : Settings
  dispatcher : Dispatcher

/-- Starts a server. -/
def start (settings : Settings) : Except Fault Running :=
  match Dispatcher.build settings none [] with
  | .ok dispatcher => .ok ⟨settings, dispatcher⟩
  | .error fault => .error fault

/-! ## Answers -/

/-- Why an answer could not be given. -/
inductive Crash where
  /-- The server could not be started, or cannot tell the URL of the request. -/
  | fault (fault : Fault)
  /-- The value of the answer has no text. -/
  | unwritable (reason : Json.Unwritable)
  deriving DecidableEq, Repr

namespace Crash

/-- The name of what the server could not go on from. -/
def name : Crash → Text
  | fault f => f.name
  | unwritable reason => reason.name

/-- Its words. -/
def message : Crash → Text
  | fault f => f.message
  | unwritable reason => reason.message

end Crash

/-- What is sent. -/
structure Served where
  status : Int
  headers : List (Text × Text)
  body : Text
  crash : Option Crash

namespace Served

/-- The header that says what the body is. -/
def contentType (type : String) : Text × Text := ("content-type".toList, type.toList)

/-- The answer of a server that could not answer. -/
def crashed (c : Crash) : Served :=
  ⟨500, [contentType "text/plain; charset=utf-8"], "Internal Server Error".toList, some c⟩

/-- A value with a status and headers. -/
def json (status : Int) (headers : List (Text × Text)) (model : Json) : Served :=
  match Json.write .answer model with
  | .ok body => ⟨status, headers ++ [contentType "application/json"], body, none⟩
  | .error reason => crashed (.unwritable reason)

/-- An answer without a value. -/
def empty (status : Int) (headers : List (Text × Text)) : Served := ⟨status, headers, [], none⟩

/-- A refusal before anything was done. -/
def refusal (status : Int) (headers : List (Text × Text)) (detail : String) : Served :=
  json status headers (Json.object [("detail".toList, .text detail.toList)])

/-- The answer of the dispatcher, header names in lower case. -/
def ofResponse (r : Http.Response) : Served :=
  let headers := r.headers.map fun h => (h.1.lower, h.2)
  match r.model with
  | none => empty r.status headers
  | some model => json r.status headers model

/-- Lets pages of the origin that asked read the answer. What a crash left is sent as it is. -/
def shareWith (origin : Option Text) (s : Served) : Served :=
  match s.crash, origin with
  | none, some origin =>
    { s with
      headers := s.headers ++ [("access-control-allow-origin".toList, origin),
        ("access-control-allow-credentials".toList, "true".toList)] }
  | _, _ => s

end Served

/-! ## Serving -/

/-- The dispatcher's answer, from whichever database is in use. A session lasts for one request. -/
def dispatch (running : Running) (r : Http.Request) (s : State) : Http.Response × State :=
  let d := running.dispatcher
  let settings := running.settings
  match s.holdings with
  | .memory store =>
    let a := d.handle (Database.inMemory true) settings settings.accessKeys r
      ⟨store, s.ids, s.metrics⟩
    (a.response, ⟨.memory a.world.database, a.world.ids, a.world.metrics⟩)
  | .sql backend =>
    let a := d.handle (Storage.database (some settings.cacheSeconds)) settings
      settings.accessKeys r ⟨Storage.Connection.begin backend, s.ids, s.metrics⟩
    (a.response, ⟨.sql a.world.database.backend, a.world.ids, a.world.metrics⟩)

/-- Asks the table and then the cache whether they can be reached. -/
def checkBackend : Storage.Program (Health × Health) := do
  let table ← Storage.isHealthy
  match ← Storage.Program.give .ping with
  | .ok () => pure (Health.ofBool table, .healthy)
  | .error _ => pure (Health.ofBool table, .unhealthy)

/-- The health of database and cache. In memory both are well. -/
def checkHealth (s : State) : (Health × Health) × State :=
  match s.holdings with
  | .memory _ => ((.healthy, .healthy), s)
  | .sql backend =>
    let (result, c) := Storage.Connection.execute checkBackend (Storage.Connection.begin backend)
    (result.toOption.getD (.unhealthy, .unhealthy), { s with holdings := .sql c.backend })

/-- The health report. -/
def reportHealth (s : State) : Served × State :=
  let ((database, cache), s) := checkHealth s
  (Served.json 200 [] (Health.report database cache), s)

/-- The answer at an entrance that needs the running server. -/
def serve (running : Running) (a : Arrival) (health : Bool) (s : State) : Served × State :=
  match a.toRequest running.settings.trustedProxies with
  | .error defect => (Served.crashed (.fault (.defect defect)), s)
  | .ok r =>
    if health then reportHealth s
    else
      let (response, s) := dispatch running r s
      (Served.ofResponse response, s)

/-- The same, unless the server could not be started. -/
def serveIfStarted (running : Except Fault Running) (a : Arrival) (health : Bool) (s : State) :
    Served × State :=
  match running with
  | .ok running => serve running a health s
  | .error fault => (Served.crashed (.fault fault), s)

/-- An answer that is given if the URL of the request can be told. -/
def ifUrl (a : Arrival) (served : Served) : Served :=
  match a.urlHead with
  | .ok _ => served
  | .error defect => Served.crashed (.fault (.defect defect))

/-- The answer to an arrival before it is shared with other origins. -/
def receive (running : Except Fault Running) (a : Arrival) (s : State) : Served × State :=
  match Entrance.of a.method a.path with
  | .health => serveIfStarted running a true s
  | .dispatcher => serveIfStarted running a false s
  | .wrongMethod allowed =>
    (Served.refusal 405 [("allow".toList, Text.joined ", ".toList allowed)] "Method Not Allowed", s)
  | .elsewhere => (ifUrl a (Served.empty 307 []), s)
  | .nowhere => (ifUrl a (Served.refusal 404 [] "Not Found"), s)

/-- The answer to an arrival, and the state after it. -/
def answer (running : Except Fault Running) (a : Arrival) (s : State) : Served × State :=
  let (served, s) := receive running a s
  (served.shareWith (a.header? "origin"), s)

end AliasGate.Server
