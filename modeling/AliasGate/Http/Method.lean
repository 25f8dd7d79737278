import AliasGate.Text.Case

/-!
# Request methods

The seven verbs that a request may have. The last one always meets with refusal.
-/

namespace AliasGate.Http

/-- A verb. -/
inductive Method where
  | get
  | head
  | post
  | put
  | delete
  | options
  | brew
  deriving DecidableEq, Repr

namespace Method

/-- All verbs. -/
def all : List Method := [get, head, post, put, delete, options, brew]

/-- The verb as it stands in a request. -/
def name : Method → Text
  | get => "GET".toList
  | head => "HEAD".toList
  | post => "POST".toList
  | put => "PUT".toList
  | delete => "DELETE".toList
  | options => "OPTIONS".toList
  | brew => "BREW".toList

/-- The verb with a name, letter case included. -/
def ofName? (s : Text) : Option Method := all.find? fun m => m.name = s

/-- The verb as it stands in names of events. -/
def eventName (m : Method) : Text := m.name.lower

end Method

end AliasGate.Http
