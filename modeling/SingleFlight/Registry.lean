/-
SingleFlight.Registry — where handles can be found.

* In a document, handles stand in the order in which they were attached, and
  signals are delivered to them from outside.
* A registry keyed by address holds one handle per address and fetches each
  handle that is attached to it; a new handle takes the place of the old one of
  its address.

`Registry.find?` looks handles up, `Registry.attach` and `Registry.remove`
change which ones are registered.
-/
import SingleFlight.Cache
import SingleFlight.Handle

namespace SingleFlight

/-- The HTTP client of a registry. -/
structure Client where
  /-- Whether the registry made the client and closes it. -/
  owned : Bool := false
  timeout : Option Float := none
  followRedirects : Bool := false
  closed : Bool := false

/-- The client that a registry makes for itself. -/
def Client.own (timeout : Option Float) : Client :=
  { owned := true, timeout, followRedirects := true }

/-- Where handles can be found. -/
inductive Registry where
  /-- Handles in document order, and how many were attached so far. -/
  | document (handles : List HandleId) (attached : Nat)
  /-- Handles by their address. -/
  | keyed (entries : Pairs String HandleId) (client : Client)

namespace Registry

/-- The registered handles in order. -/
def handles : Registry → List HandleId
  | document hs _ => hs
  | keyed entries _ => entries.map (·.2)

/-- Whether attached handles are fetched over HTTP. -/
def fetches : Registry → Bool
  | document _ _ => false
  | keyed _ _ => true

/-- The first registered handle with a property. -/
def first? (r : Registry) (table : Table Handle) (p : Handle → Bool) : Option HandleId :=
  r.handles.find? fun h => (table.get? h).any p

/--
The registered handle of an address or a tag. In a document the first handle that has either is
found; otherwise the address goes before the tag.
-/
def find? (r : Registry) (table : Table Handle) (url : String) (tag : Option String) :
    Option HandleId :=
  match r with
  | document _ _ => r.first? table (·.answers url tag)
  | keyed entries _ =>
    match entries.get? url with
    | some h => some h
    | none => if tag.isSome then r.first? table (·.tag == tag) else none

/-- A handle of the kind that the registry holds. -/
def make (r : Registry) (url : String) (tag : Option String) : Handle :=
  { url, tag, download := if r.fetches then some {} else none }

/-- The registry with one more handle, which has the given address. -/
def attach (r : Registry) (h : HandleId) (url : String) : Registry :=
  match r with
  | document hs n => document (hs ++ [h]) (n + 1)
  | keyed entries client => keyed (entries.put url h) client

/-- The registry with a handle planted by someone else, which is not counted as attached. -/
def plant (r : Registry) (h : HandleId) (url : String) : Registry :=
  match r with
  | document hs n => document (hs ++ [h]) n
  | keyed entries client => keyed (entries.put url h) client

/-- The registry without a handle; one that is not registered under its address changes nothing. -/
def remove (r : Registry) (h : HandleId) (url : String) : Registry :=
  match r with
  | document hs n => document (hs.erase h) n
  | keyed entries client =>
    if entries.get? url = some h then keyed (entries.erase url) client
    else keyed entries client

/-- Whether the registry has a client of its own. -/
def ownsClient : Registry → Bool
  | document _ _ => false
  | keyed _ client => client.owned

/-- The registry with its client closed, if the client is its own. -/
def shut : Registry → Registry
  | document hs n => document hs n
  | keyed entries client => keyed entries { client with closed := client.closed || client.owned }

end Registry

end SingleFlight
