/-
SingleFlight.Scenario.Script — scripted uses of a loader.

A scenario builds a loader and takes steps. Observers, the starter and the hook
are scripts too: they may take steps of their own when they are called, and may
raise an error. Handles, promises and tasks are named in the order in which
they turn up: `h0`, `h1`, …, `f0`, …, `t0`, ….

* `Step`, `Observer` — the steps, and the scripts of observers.
* `StarterTurn`, `HookTurn` — what the starter and the hook do at one call.
* `Setup` — the loader of a scenario.
-/
import SingleFlight.Address
import SingleFlight.Backend
import SingleFlight.Loader.Basic

namespace SingleFlight.Scenario

/-- The source of a scripted signal. -/
inductive SourceSpec where
  | nowhere
  | address (url : String)
  | handle (name : String)
deriving DecidableEq, Repr

/-- A scripted signal. -/
structure EventSpec where
  type : String
  source : SourceSpec := .nowhere
deriving DecidableEq, Repr

mutual

/-- The script of an observer: its name, its steps at the first call, the error it raises. -/
inductive Observer where
  | mk (name : String) (steps : List Step) (raises : Option String)

/-- One step of a scenario. -/
inductive Step where
  | request (chunk : ChunkId)
  | gather (chunks : List ChunkId)
  | ensure (chunks : List ChunkId)
  | cancel (which : String)
  | mark (chunk : ChunkId) (e : Entry)
  | state (chunk : ChunkId)
  | attempts (chunk : ChunkId)
  | report (chunk : ChunkId) (e : EventSpec)
  | reportLater (chunk : ChunkId) (e : EventSpec)
  /-- Gives back the ticket of the starter's call of this number. -/
  | redeem (call : Int) (e : EventSpec)
  | closeCache
  | closeLoads
  | close
  /-- Enters the loader's scope, does nothing there, and leaves it. -/
  | scope
  | load (chunk : ChunkId) (url : String) (done : Option Observer)
  | settle (chunk : ChunkId) (e : EventSpec)
  | find (chunk : ChunkId) (url : String)
  | tag (chunk : ChunkId)
  | findHandle (chunk : ChunkId)
  | address (chunk : ChunkId)
  | settings
  | counters
  | plant (url : String) (tag : Option String) (loading : Bool) (onLoad onError : Option Observer)
  | complete (url type : String)
  | lookup (url : String) (tag : Option String)
  | create (url : String) (tag : Option String)
  | createPlain (url : String) (tag : Option String)
  | attach (handle : String)
  | remove (handle : String)
  | answers (handle url : String) (tag : Option String)
  | dispatch (handle type : String)
  | assign (handle : String) (onLoad onError : Option (Option Observer)) (loading : Option Bool)
  | saveSlots (handle name : String)
  | callSaved (name : String) (onLoad : Bool) (e : EventSpec)
  /-- Moves the clock, by a number of seconds that may be beyond the doubles. -/
  | advance (seconds : Option Float)
  | respond (url : String) (r : Reply)

end

/-- What the starter does at one call. -/
structure StarterTurn where
  steps : List Step := []
  /-- The signal that it settles the attempt with before it returns. -/
  settles : Option EventSpec := none
  raises : Option String := none

/-- What the hook does at one call. -/
structure HookTurn where
  steps : List Step := []
  raises : Option String := none

/-- How the addresses of a scenario's chunks are given. -/
inductive AddressSpec where
  /-- As the settings say. -/
  | ofSettings
  | book (b : AddressBook)

/-- The loader of a scenario, and what the scenario looks at. -/
inductive Setup where
  /-- A registry by itself. -/
  | registry (http : Bool)
  /-- A cache whose starter, and hook if there is one, are scripted. -/
  | cache (policy : Policy) (installed : List (ChunkId × String))
      (starter : List StarterTurn) (hook : Option (List HookTurn))
  /-- Loads over a registry, without a cache. -/
  | loads (policy : Policy) (http : Bool)
  /-- A whole loader; `registry` is given, or made as the settings say. -/
  | whole (settings : Settings) (registry : Option RegistryBackend) (ownClient : Bool)
      (addresses : AddressSpec) (noAsset : List ChunkId) (installed : List (ChunkId × String))

/-- The parts of a loader that a scenario is about. -/
inductive Focus where
  | registry
  | cache
  | loads
  | whole
deriving DecidableEq, Repr

namespace Focus

def showsRegistry (f : Focus) : Bool :=
  f ≠ .cache

def showsLoads (f : Focus) : Bool :=
  f = .loads || f = .whole

def showsCache (f : Focus) : Bool :=
  f = .cache || f = .whole

end Focus

end SingleFlight.Scenario
