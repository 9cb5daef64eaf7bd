/-
SingleFlight.Scenario.Session — the state of a scenario under way.

* `Session` — the loader, the scripts that it may call, the names given so far,
  and what the current step has brought.
* `Session.start` — the session that a setup describes.
* `Session.nameHandle`, `Session.namePromise` — names, given at first sight.
-/
import SingleFlight.Loader.Opening
import SingleFlight.Loader.Operation
import SingleFlight.Scenario.Script

namespace SingleFlight.Scenario

/-! ## What steps bring -/

/-- A result of a step. -/
inductive Value where
  | nothing
  | flag (b : Bool)
  | text (s : String)
  | number (n : Int)
  | name (s : Option String)
  | names (ss : List String)
  /-- Whether each of two slots is set. -/
  | slots (onLoad onError : Bool)
  | settings (s : Settings)
  | counters (cs : Option (List ((String × Metrics.Tags) × Int)))

/-- What a step comes to. -/
inductive Result where
  | value (v : Value)
  | fault (f : Fault)

/-- What is seen of scripts and of the loop while a step is taken. -/
inductive Remark where
  /-- An observer was called. -/
  | observed (name type : String) (request : Option String)
  | starting (chunk : ChunkId)
  | consulted (chunk : ChunkId) (type : String) (request : Option String)
  /-- A script took a step. -/
  | step (name : String) (r : Result)
  /-- The client was asked for an address. -/
  | asked (url : String)
  /-- An error that nobody was there to hear. -/
  | lost (f : Fault)

/-! ## Sessions -/

/-- A script that the loader knows by number. -/
inductive Script where
  | observer (name : String) (steps : List Step) (raises : Option String)
  /-- The place of an observer where there is none; it cannot be called. -/
  | nobody

/-- A scenario under way. -/
structure Session where
  focus : Focus
  loader : Loader
  settings : Settings := {}
  scripts : Table Script := {}
  starter : List StarterTurn := []
  hook : List HookTurn := []
  /-- The tickets that the starter was called with. -/
  tickets : List Ticket := []
  handleNames : List HandleId := []
  promiseNames : List PromiseId := []
  saved : Pairs String (Slot × Slot) := []
  /-- How many of the settled promises have been looked at. -/
  heard : Nat := 0
  /-- The tasks whose end was told. -/
  told : List TaskId := []
  remarks : List Remark := []
  /-- The named promises that settled. -/
  settled : List (String × Outcome) := []

namespace Session

/-- A registry by itself, over a client that is not its own. -/
def plainRegistry (http : Bool) : Registry :=
  (if http then RegistryBackend.keyed else .document).create {}

/-- The addresses of a loader. -/
def bookOf (s : Settings) : AddressSpec → AddressBook
  | .book b => b
  | .ofSettings => .template { publicPath := s.publicPath, filename := s.filename }

/-- The session that a setup describes, if its parts are usable. -/
def start : Setup → Except Fault Session
  | .registry http =>
    .ok { focus := .registry, loader := .ofLoads {} (plainRegistry http) .silent }
  | .cache policy installed starter hook => do
    let policy ← Policy.make policy.timeout policy.uniqueName policy.assetKind
    let cache ← Cache.seed installed
    return {
      focus := .cache
      loader := .ofCache policy hook.isSome cache (.tally {})
      starter
      hook := hook.getD [] }
  | .loads policy http => do
    let policy ← Policy.make policy.timeout policy.uniqueName policy.assetKind
    return { focus := .loads, loader := .ofLoads policy (plainRegistry http) (.tally {}) }
  | .whole settings registry ownClient addresses noAsset installed => do
    let policy ← settings.policy
    let sink ← SinkBackend.ofName settings.metricsBackend
    let registry ← match registry with
      | some b => pure (b.create {})
      | none => do
        let b ← RegistryBackend.ofName settings.handleBackend
        pure (b.create (.choose (!ownClient) settings.httpTimeout))
    let cache ← Cache.seed installed
    return {
      focus := .whole
      settings
      loader := .whole policy (bookOf settings addresses).resolve
        (fun chunk => !noAsset.contains chunk) cache registry sink.create }

/-! ## Names -/

/-- The name of the `i`th thing of a kind. -/
def nameOf (letter : String) (i : Nat) : String :=
  letter ++ toString i

/-- The place of a name among the first `count` names of a kind. -/
def place? (letter : String) (count : Nat) (name : String) : Option Nat :=
  (List.range count).find? fun i => nameOf letter i == name

/-- The handle of a name. -/
def handle? (s : Session) (name : String) : Option HandleId :=
  (place? "h" s.handleNames.length name).bind (s.handleNames[·]?)

/-- The promise of a name. -/
def promise? (s : Session) (name : String) : Option PromiseId :=
  (place? "f" s.promiseNames.length name).bind (s.promiseNames[·]?)

/-- The task of a name. -/
def task? (s : Session) (name : String) : Option TaskId :=
  place? "t" s.loader.tasks.size name

/-- The name of a handle, which gets the next one if it has none. -/
def nameHandle (s : Session) (h : HandleId) : Session × String :=
  match s.handleNames.idxOf? h with
  | some i => (s, nameOf "h" i)
  | none =>
    ({ s with handleNames := s.handleNames ++ [h] }, nameOf "h" s.handleNames.length)

/-- Takes up the promises that have settled since the last time. -/
def hearPromises (s : Session) : Session :=
  let fresh := s.loader.promises.settled.drop s.heard
  let news := fresh.filterMap fun p => do
    let i ← s.promiseNames.idxOf? p
    let o ← s.loader.promises.outcome? p
    return (nameOf "f" i, o)
  { s with heard := s.loader.promises.settled.length, settled := s.settled ++ news }

/-- The name of a promise, which gets the next one if it has none. -/
def namePromise (s : Session) (p : PromiseId) : Session × String :=
  let s := s.hearPromises
  match s.promiseNames.idxOf? p with
  | some i => (s, nameOf "f" i)
  | none =>
    let name := nameOf "f" s.promiseNames.length
    let news := match s.loader.promises.outcome? p with
      | some o => [(name, o)]
      | none => []
    ({ s with promiseNames := s.promiseNames ++ [p], settled := s.settled ++ news }, name)

/-- Names several promises in order. -/
def namePromises (s : Session) : List PromiseId → Session × List String
  | [] => (s, [])
  | p :: rest =>
    let (s, name) := s.namePromise p
    let (s, names) := s.namePromises rest
    (s, name :: names)

/-- The answer of an operation, as a result. -/
def valueOf (s : Session) : Answer → Session × Value
  | .nothing => (s, .nothing)
  | .flag b => (s, .flag b)
  | .promise p => let (s, name) := s.namePromise p; (s, .name name)
  | .handle h => let (s, name) := s.nameHandle h; (s, .name name)
  | .task t => (s, .name (nameOf "t" t))
  | .closing _ => (s, .nothing)

/-- A handle that may be missing, as a result. -/
def valueOfHandle? (s : Session) : Option HandleId → Session × Value
  | none => (s, .name none)
  | some h => s.valueOf (.handle h)

/-! ## Scripts -/

/-- Adds a remark. -/
def remark (s : Session) (r : Remark) : Session :=
  { s with remarks := s.remarks ++ [r] }

/-- Gives an observer a number. -/
def register (s : Session) : Option Observer → Session × CallbackId
  | none => ({ s with scripts := s.scripts.add .nobody }, s.scripts.size)
  | some (.mk name steps raises) =>
    ({ s with scripts := s.scripts.add (.observer name steps raises) }, s.scripts.size)

/-- The slot that holds an observer, or nothing. -/
def slotOf (s : Session) : Option Observer → Session × Slot
  | none => (s, {})
  | some o => let (s, k) := s.register (some o); (s, { foreign := some k })

/-- The slot to assign, if one is given. -/
def slotOf? (s : Session) : Option (Option Observer) → Session × Option Slot
  | none => (s, none)
  | some o => let (s, slot) := s.slotOf o; (s, some slot)

/-- The signal that a script describes. -/
def event (s : Session) (e : EventSpec) : Except Fault LoadEvent :=
  match e.source with
  | .nowhere => .ok { type := e.type }
  | .address url => .ok { type := e.type, source := some { url } }
  | .handle name =>
    match s.handle? name with
    | some h => .ok (s.loader.signalFrom h e.type)
    | none => .error (.missing name)

end Session

end SingleFlight.Scenario
