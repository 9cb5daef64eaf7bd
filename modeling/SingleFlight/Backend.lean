/-
SingleFlight.Backend — registries and sinks by name.

White space around a name and its case are of no account.

* `RegistryBackend.ofName`, `SinkBackend.ofName` — what a name selects.
* `RegistryBackend.create`, `SinkBackend.create` — a fresh one of the kind.
-/
import SingleFlight.Metrics.Sink
import SingleFlight.Registry
import SingleFlight.Settings

namespace SingleFlight

/-- The kinds of handle registry. -/
inductive RegistryBackend where
  | document
  | keyed
deriving DecidableEq, Repr

/-- The registry that a name selects. -/
def RegistryBackend.ofName (backend : String) : Except Fault RegistryBackend :=
  let key := lowered (trimmed backend)
  if ["mem", "memory", "inmemory", "in_memory"].contains key then .ok .document
  else if ["http", "httpx"].contains key then .ok .keyed
  else .error (.unknownRegistry backend)

/-- A fresh registry of a kind, over a client if it fetches. -/
def RegistryBackend.create (b : RegistryBackend) (client : Client) : Registry :=
  match b with
  | .document => .document [] 0
  | .keyed => .keyed [] client

/-- The client of a new registry: one that is passed in, or one of the registry's own. -/
def Client.choose (passed : Bool) (timeout : Option Float) : Client :=
  if passed then {} else .own timeout

/-- The kinds of metrics sink. -/
inductive SinkBackend where
  | silent
  | tally
  | declared
deriving DecidableEq, Repr

namespace SinkBackend

/-- The sink that a name selects. -/
def ofName (backend : String) : Except Fault SinkBackend :=
  let key := lowered (trimmed backend)
  if ["", "none", "noop"].contains key then .ok .silent
  else if ["mem", "memory", "inmemory", "in_memory"].contains key then .ok .tally
  else if key = "prometheus" then .ok .declared
  else .error (.unknownSink backend)

/-- A fresh sink of a kind. -/
def create : SinkBackend → Metrics.Sink
  | silent => .silent
  | tally => .tally {}
  | declared => .declared (.fresh Metrics.Collector.client Metrics.Declared.ownSpace)

end SinkBackend

end SingleFlight
