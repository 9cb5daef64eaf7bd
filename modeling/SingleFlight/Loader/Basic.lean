/-
SingleFlight.Loader.Basic — the state of a loader.

A loader has a cache of chunk entries with their promises, handles and the
registry that finds them, the loads that wait for handles with their watchdogs,
and an event loop: a clock, callbacks that are ready to run, tasks that wait for
several promises, and fetches over HTTP.

Everything is a value: a step of a loader gives the next loader. What a loader
asks of its user's code is data too (`SingleFlight.Loader.Flow`).
-/
import SingleFlight.Metrics.Sink
import SingleFlight.Policy
import SingleFlight.Registry

namespace SingleFlight

/-! ## Loads -/

/-- Whom a load tells its outcome. -/
inductive Done where
  /-- The cache, which settles the entry that the ticket was handed out for. -/
  | redeem (t : Ticket)
  /-- Code of the loader's user. -/
  | call (k : CallbackId)
deriving DecidableEq, Repr

/-- One load that waits, or waited, for a handle. -/
structure Attempt where
  chunk : ChunkId
  handle : HandleId
  done : Done
  settled : Bool := false
deriving DecidableEq, Repr

/-- The alarm of one load: its window ends when the clock reaches `due`. -/
structure Watchdog where
  attempt : AttemptId
  due : Float

/-! ## The event loop -/

/-- A task that waits for several chunks, by its place among the tasks of its loader. -/
abbrev TaskId := Nat

/-- A fetch over HTTP, by its place among the fetches of its loader. -/
abbrev FetchId := Nat

/-- How a task ends. -/
inductive TaskEnd where
  | ok
  | cancelled
  | fault (f : Fault)

/-- The end of a task whose promises had this outcome. -/
def TaskEnd.ofOutcome : Outcome → TaskEnd
  | .ok => ok
  | .cancelled => cancelled
  | .failed f => fault (.load f)

/-- What a task waits for. -/
structure Wait where
  /-- The promises, each once. -/
  children : List PromiseId
  /-- Those of which the task has not heard yet. -/
  left : List PromiseId
  /-- Whether a cancellation was passed on to the promises. -/
  cancelAsked : Bool := false
  /-- The outcome of the wait, once it is decided. -/
  outcome : Option Outcome := none
  /-- Whether the task ends as cancelled whatever the outcome. -/
  mustCancel : Bool := false

/-- How far a task has got. -/
inductive Task where
  | created (chunks : List ChunkId) (cancelled : Bool)
  | waiting (w : Wait)
  | over (r : TaskEnd)

/-- Whether a task still waits to hear of a promise. -/
def Task.awaits (p : PromiseId) : Task → Bool
  | .waiting w => w.left.contains p
  | _ => false

/-- What the HTTP client brings. -/
inductive Reply where
  /-- A response; `complaint` is what the client says of one that reports no success. -/
  | response (status : Int) (content complaint : String)
  /-- The exchange failed; there is no response. -/
  | failed (message : String)
  /-- The request could not be made; `kind` names the error. -/
  | unsendable (kind message : String)
deriving DecidableEq, Repr

/-- How far a fetch has got. -/
inductive FetchStage where
  | created
  /-- The client was asked and has not answered. -/
  | asked
  | answered (r : Reply)
  /-- The fetch was cancelled; it ends when the event loop gets to it. -/
  | stopping
  | over
deriving DecidableEq, Repr

/-- The fetch of one handle. -/
structure Fetch where
  handle : HandleId
  stage : FetchStage := .created
deriving DecidableEq, Repr

/-- A shutdown, or one of the registry alone, by its place among those of its loader. -/
abbrev ClosingId := Nat

/-- How far a shutdown has got. Whoever waits for it may cancel it until it is over. -/
inductive Closing where
  /-- The loads and the cache are being closed. -/
  | ending (cancelled : Bool)
  /-- The fetches were cancelled; of those in `left` the shutdown has not heard yet. -/
  | stopping (left : List FetchId) (cancelled : Bool)
  /-- The client is being closed; `result` says how that ended, once it has. -/
  | releasing (result : Option TaskEnd)
  | over (r : TaskEnd)

/-- Whether a shutdown still waits to hear of a fetch. -/
def Closing.awaits (f : FetchId) : Closing → Bool
  | .stopping left _ => left.contains f
  | _ => false

/-- Whether a shutdown waits for the client to be closed. -/
def Closing.awaitsClient : Closing → Bool
  | .releasing none => true
  | _ => false

/-- What the event loop runs next, in the order of its queue. -/
inductive Job where
  /-- A report that was marshalled onto the loop. -/
  | report (chunk : ChunkId) (e : LoadEvent)
  | startTask (t : TaskId)
  /-- Tells a task that one of its promises settled. -/
  | childSettled (t : TaskId) (p : PromiseId)
  | wakeTask (t : TaskId)
  /-- Asks the client for the handle of a fetch. -/
  | ask (f : FetchId)
  /-- Hands the client's answer, or a cancellation, to a fetch. -/
  | answer (f : FetchId)
  /-- The registry forgets a fetch that is over. -/
  | forget (f : FetchId)
  /-- Tells a shutdown that a fetch it waits for is over. -/
  | fetchEnded (c : ClosingId) (f : FetchId)
  | wakeClosing (c : ClosingId)
deriving DecidableEq, Repr

/-! ## Log records -/

/-- The parts of a loader that keep a log. -/
inductive LogSource where
  | cache
  | loads
  | fetches
deriving DecidableEq, Repr

/-- The name that a part logs under. -/
def LogSource.name : LogSource → String
  | cache => "chunkload.cache"
  | loads => "chunkload.coordinator"
  | fetches => "chunkload.handles.http"

inductive LogLevel where
  | debug
  | info
  | warning
  | error
deriving DecidableEq, Repr

/-- The word for a level. -/
def LogLevel.word : LogLevel → String
  | debug => "debug"
  | info => "info"
  | warning => "warning"
  | error => "error"

structure LogRecord where
  source : LogSource
  level : LogLevel
  text : String
deriving DecidableEq, Repr

/-! ## Loaders -/

/-- Who carries out the fetches that the cache asks for. -/
inductive Wiring where
  /-- Code of the loader's user; `hook` says whether it also wants to see reports first. -/
  | user (hook : Bool)
  /-- The loader itself, from the address that a chunk has, if it has one. -/
  | fetch (resolve : ChunkId → Except Fault String)

/-- What stays the same for the life of a loader. -/
structure Plan where
  policy : Policy := {}
  wiring : Wiring := .user false
  /--
  Chunks that have nothing to fetch are skipped instead. It always answers: a matcher that raises
  an error is left out.
  -/
  hasAsset : ChunkId → Bool := fun _ => true

/-- A loader. -/
structure Loader where
  plan : Plan := {}
  cache : Cache := {}
  promises : Promises := {}
  /-- The promises that requests were answered with, each with its chunk, in order. -/
  handed : List (ChunkId × PromiseId) := []
  handles : Table Handle := {}
  registry : Registry := .document [] 0
  attempts : Table Attempt := {}
  /-- The loads that wait for their outcome, in the order in which they began. -/
  active : List AttemptId := []
  /-- The armed watchdogs, in the order in which they were armed. -/
  watchdogs : List Watchdog := []
  now : Float := 0
  ready : List Job := []
  tasks : Table Task := {}
  fetches : Table Fetch := {}
  /-- What the client answers at once when it is asked for an address, instead of later. -/
  prompts : Pairs String Reply := []
  /-- The shutdowns so far, in the order in which they began. -/
  closings : Table Closing := {}
  sink : Metrics.Sink := .silent
  log : List LogRecord := []
  /-- Whether a shutdown of the loader has begun. -/
  closed : Bool := false

namespace Loader

/-- Adds a record to the log. -/
def note (l : Loader) (source : LogSource) (level : LogLevel) (text : String) : Loader :=
  { l with log := l.log ++ [⟨source, level, text⟩] }

/-- Counts one; the sink may refuse. -/
def count (l : Loader) (name : String) (tag : String × String) : Loader × Option Fault :=
  let (sink, refusal) := l.sink.add name (.whole 1) [tag]
  ({ l with sink }, refusal.map .metrics)

/-- Puts a job at the end of the queue. -/
def queue (l : Loader) (j : Job) : Loader :=
  { l with ready := l.ready ++ [j] }

/-- The jobs that tell the tasks waiting for a promise that it settled. -/
def tidings (l : Loader) (p : PromiseId) : List Job :=
  l.tasks.rows.zipIdx.filterMap fun (task, t) =>
    if task.awaits p then some (.childSettled t p) else none

/-- Settles a promise that is pending, and lets the tasks that wait for it know. -/
def settlePromise (l : Loader) (p : PromiseId) (o : Outcome) : Loader :=
  if l.promises.isPending p then
    { l with promises := l.promises.settle p o, ready := l.ready ++ l.tidings p }
  else l

/-- Makes a pending promise. -/
def newPromise (l : Loader) : Loader × PromiseId :=
  let (promises, p) := l.promises.create
  ({ l with promises }, p)

/-- Answers a request for a chunk with a promise. -/
def hand (l : Loader) (chunk : ChunkId) (p : PromiseId) : Loader :=
  { l with handed := l.handed ++ [(chunk, p)] }

/-- The source of signals that come from a handle. -/
def sourceOf (l : Loader) (h : HandleId) : Option EventSource :=
  (l.handles.get? h).map fun handle => { url := handle.url, handle := some h }

/-- A signal from a handle. -/
def signalFrom (l : Loader) (h : HandleId) (type : String) : LoadEvent :=
  { type, source := l.sourceOf h }

/-- The registered handle for a chunk's address or tag. -/
def findHandle (l : Loader) (chunk : ChunkId) (url : String) : Option HandleId :=
  l.registry.find? l.handles url (some (l.plan.policy.tagFor chunk))

end Loader

end SingleFlight
