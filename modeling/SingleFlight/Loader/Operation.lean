/-
SingleFlight.Loader.Operation — what can be asked of a loader.

* `Operation` — the operations, as data.
* `Loader.invoke` — an operation's answer, and the work that is left to do
  before the answer counts (`Loader.drive`). An error in that work takes the
  place of the answer.
-/
import SingleFlight.Loader.Jobs

namespace SingleFlight

/-- What can be asked of a loader. -/
inductive Operation where
  /-- Load a chunk. -/
  | request (chunk : ChunkId)
  /-- Give an unknown chunk a final entry. -/
  | mark (chunk : ChunkId) (e : Entry)
  /-- End the attempt in flight for a chunk by an outcome observed elsewhere. -/
  | report (chunk : ChunkId) (e : LoadEvent)
  /-- The same, when the event loop gets to it. -/
  | reportLater (chunk : ChunkId) (e : LoadEvent)
  /-- Give a ticket back with the outcome of its attempt. -/
  | redeem (t : Ticket) (e : LoadEvent)
  | closeCache
  /-- Wait for the handle of an address on behalf of a chunk. -/
  | load (chunk : ChunkId) (url : String) (done : Done)
  /-- End the first active load of a chunk. -/
  | settle (chunk : ChunkId) (e : LoadEvent)
  /-- Abort every active load. -/
  | closeLoads
  /-- Shut the registry down, but not the loader. -/
  | closeRegistry
  /-- Shut the loader down. -/
  | close
  | cancelClosing (c : ClosingId)
  /-- The client that a shutdown waits for has been closed, or has raised an error. -/
  | clientClosed (c : ClosingId) (problem : Option Fault)
  /-- Plant a handle that the loader did not make. -/
  | plant (handle : Handle)
  /-- Make a handle of the registry's kind that is not registered. -/
  | create (url : String) (tag : Option String)
  /-- Make a handle that cannot hold a download. -/
  | createPlain (url : String) (tag : Option String)
  | attach (h : HandleId)
  | remove (h : HandleId)
  /-- Deliver a signal to the registered handle of an address. -/
  | complete (url type : String)
  /-- Deliver a signal to a handle. -/
  | dispatch (h : HandleId) (type : String)
  /-- Call what a slot held when it was looked at. -/
  | notify (s : Slot) (e : LoadEvent)
  /-- Assign fields of a handle. -/
  | assign (h : HandleId) (onLoad onError : Option Slot) (loading : Option Bool)
  /-- Wait for several chunks in a task. -/
  | ensure (chunks : List ChunkId)
  | cancelPromise (p : PromiseId)
  | cancelTask (t : TaskId)
  /-- The client answers the oldest question about an address. -/
  | respond (url : String) (r : Reply)
  /-- From now on the client answers questions about an address at once, or waits again. -/
  | prompt (url : String) (r : Option Reply)

/-- What an operation answers. -/
inductive Answer where
  | nothing
  | promise (p : PromiseId)
  | handle (h : HandleId)
  | task (t : TaskId)
  /-- A shutdown has begun, and goes on in the event loop. -/
  | closing (c : ClosingId)
  | flag (b : Bool)
deriving DecidableEq, Repr

namespace Loader

/-- An answer and the work to be done first. -/
abbrev Asked := Except Fault (Answer × List Frame)

/-- An operation that is done at once. -/
def atOnce (a : Answer) : Asked :=
  .ok (a, [])

/-- Delivers a signal to a handle. -/
def dispatch (l : Loader) (h : HandleId) (type : String) : List Frame :=
  match l.handles.get? h with
  | some handle => [.signal (handle.slotFor type) (l.signalFrom h type)]
  | none => []

/-- Adds a handle to the registry for someone else. -/
def plant (l : Loader) (handle : Handle) : Loader × HandleId :=
  let (l, h) := l.newHandle handle
  ({ l with registry := l.registry.plant h handle.url }, h)

/-- Assigns fields of a handle. -/
def assign (l : Loader) (h : HandleId) (onLoad onError : Option Slot) (loading : Option Bool) :
    Loader :=
  l.changeHandle h fun handle =>
    { handle with
      onLoad := onLoad.getD handle.onLoad
      onError := onError.getD handle.onError
      loading := loading.getD handle.loading }

/-- Changes what the client answers at once for an address. -/
def prompt (l : Loader) (url : String) : Option Reply → Loader
  | some r => { l with prompts := l.prompts.put url r }
  | none => { l with prompts := l.prompts.erase url }

/-- Invokes an operation. -/
def invoke (l : Loader) : Operation → Loader × Asked
  | .request chunk =>
    match l.request chunk with
    | (l, .error f) => (l, .error f)
    | (l, .ok (p, none)) => (l.hand chunk p, atOnce (.promise p))
    | (l, .ok (p, some t)) => (l, .ok (.promise p, [.start t, .hand chunk p]))
  | .mark chunk e => (l.mark chunk e, atOnce .nothing)
  | .report chunk e => let (l, work) := l.report chunk e; (l, .ok (.nothing, work))
  | .reportLater chunk e =>
    if l.cache.used then (l.queue (.report chunk e), atOnce .nothing) else (l, .error .neverUsed)
  | .redeem t e => (l.redeem t e, atOnce .nothing)
  | .closeCache => (l.closeCache, atOnce .nothing)
  | .load chunk url done =>
    match l.load chunk url done with
    | (l, .error f) => (l, .error f)
    | (l, .ok (h, none)) => (l, atOnce (.handle h))
    | (l, .ok (h, some a)) =>
      (l, .ok (.handle h, [.signal { waiting := [a] } (l.signalFrom h "load")]))
  | .settle chunk e =>
    match l.activeFor? chunk with
    | none => (l, atOnce (.flag false))
    | some a => (l, .ok (.flag true, [.signal { waiting := [a] } e]))
  | .closeLoads => (l, .ok (.nothing, [.abort l.active]))
  | .closeRegistry => let (l, c) := l.newClosing; (l.closeRegistry c, atOnce (.closing c))
  | .close =>
    if l.closed then (l, atOnce .nothing)
    else
      let (l, c) := { l with closed := true }.newClosing
      (l, .ok (.closing c, [.abort l.active, .shut c]))
  | .cancelClosing c => let (l, b) := l.cancelClosing c; (l, atOnce (.flag b))
  | .clientClosed c problem => let (l, b) := l.clientClosed c problem; (l, atOnce (.flag b))
  | .plant handle => let (l, h) := l.plant handle; (l, atOnce (.handle h))
  | .create url tag =>
    let (l, h) := l.newHandle (l.registry.make url tag)
    (l, atOnce (.handle h))
  | .createPlain url tag =>
    let (l, h) := l.newHandle { url, tag }
    (l, atOnce (.handle h))
  | .attach h =>
    match l.attach h with
    | (l, some f) => (l, .error f)
    | (l, none) => (l, atOnce .nothing)
  | .remove h => (l.remove h, atOnce .nothing)
  | .complete url type =>
    match l.registry.find? l.handles url none with
    | none => (l, .error (.noHandle url))
    | some h => (l, .ok (.handle h, l.dispatch h type))
  | .dispatch h type => (l, .ok (.nothing, l.dispatch h type))
  | .notify s e => (l, .ok (.nothing, [.signal s e]))
  | .assign h onLoad onError loading => (l.assign h onLoad onError loading, atOnce .nothing)
  | .ensure chunks => let (l, t) := l.ensure chunks; (l, atOnce (.task t))
  | .cancelPromise p => let (l, b) := l.cancelPromise p; (l, atOnce (.flag b))
  | .cancelTask t => let (l, b) := l.cancelTask t; (l, atOnce (.flag b))
  | .respond url r => let (l, b) := l.respond url r; (l, atOnce (.flag b))
  | .prompt url r => (l.prompt url r, atOnce .nothing)

end Loader

end SingleFlight
