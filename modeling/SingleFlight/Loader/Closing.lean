/-
SingleFlight.Loader.Closing — a registry that fetches is shut down.

A shutdown of the registry does its work in three parts, and the event loop runs
between them: it cancels the fetches that the registry keeps, waits until all of
them are over, and closes the client, if the registry owns it. Meanwhile anything
else can happen; a second shutdown can begin, and the one under way can be
cancelled. One that is cancelled while it waits for the fetches does not get to
the client.

* `Loader.stopFetch`, `Loader.endFetch` — a fetch is cancelled, and comes to its end.
* `Loader.closeRegistry` — the first part; `Loader.fetchEnded`, `Loader.wakeClosing`,
  `Loader.clientClosed` — how the others come about.
* `Loader.cancelClosing` — whoever waits for a shutdown cancels it.
-/
import SingleFlight.Loader.Basic

namespace SingleFlight.Loader

/-! ## Fetches -/

/-- Moves a fetch to another stage. -/
def setStage (l : Loader) (f : FetchId) (stage : FetchStage) : Loader :=
  { l with fetches := l.fetches.update f ({ · with stage }) }

/-- The jobs that tell the shutdowns waiting for a fetch that it is over. -/
def endings (l : Loader) (f : FetchId) : List Job :=
  l.closings.rows.zipIdx.filterMap fun (closing, c) =>
    if closing.awaits f then some (.fetchEnded c f) else none

/--
A fetch comes to its end. The registry keeps it until the event loop gets to that, and the
shutdowns that wait for it hear of it after that.
-/
def endFetch (l : Loader) (f : FetchId) : Loader :=
  { l.setStage f .over with ready := l.ready ++ .forget f :: l.endings f }

/-- Whether a fetch is over. -/
def isOver (l : Loader) (f : FetchId) : Bool :=
  (l.fetches.get? f).any (·.stage = .over)

/-- The fetches that the registry keeps: those not over yet, and those it has still to forget. -/
def keptFetches (l : Loader) : List FetchId :=
  (List.range l.fetches.size).filter fun f => !l.isOver f || l.ready.contains (.forget f)

/-- Cancels a fetch. One that waits for the client is woken; the others have their turn anyway. -/
def stopFetch (l : Loader) (f : FetchId) : Loader :=
  match l.fetches.get? f with
  | some { stage := .created, .. } => l.setStage f .stopping
  | some { stage := .asked, .. } => (l.setStage f .stopping).queue (.answer f)
  | some { stage := .answered _, .. } => l.setStage f .stopping
  | _ => l

/-! ## Shutdowns -/

/-- Moves a shutdown on. -/
def setClosing (l : Loader) (c : ClosingId) (closing : Closing) : Loader :=
  { l with closings := l.closings.update c fun _ => closing }

/-- Begins a shutdown. -/
def newClosing (l : Loader) : Loader × ClosingId :=
  ({ l with closings := l.closings.add (.ending false) }, l.closings.size)

/--
Closes the client that is the registry's own; it counts as closed from then on. A cancellation
that has not struck yet strikes now.
-/
def releaseClient (l : Loader) (c : ClosingId) (cancelled : Bool) : Loader :=
  if l.registry.ownsClient then
    let l := { l with registry := l.registry.shut }
    if cancelled then (l.setClosing c (.releasing (some .cancelled))).queue (.wakeClosing c)
    else l.setClosing c (.releasing none)
  else l.setClosing c (.over .ok)

/-- Cancels the fetches that are kept and waits for them, or goes on if there are none. -/
def stopFetches (l : Loader) (c : ClosingId) (cancelled : Bool) : Loader :=
  match l.keptFetches with
  | [] => l.releaseClient c cancelled
  | left =>
    let stopped := left.foldl stopFetch l
    { stopped.setClosing c (.stopping left cancelled) with
      ready := stopped.ready ++ (left.filter l.isOver).map (.fetchEnded c) }

/-- A shutdown has done with the loads and the cache, and turns to the registry. -/
def closeRegistry (l : Loader) (c : ClosingId) : Loader :=
  match l.closings.get? c with
  | some (.ending cancelled) => l.stopFetches c cancelled
  | _ => l

/-- Tells a shutdown that a fetch is over; when it has heard of all it goes on. -/
def fetchEnded (l : Loader) (c : ClosingId) (f : FetchId) : Loader :=
  match l.closings.get? c with
  | some (.stopping left cancelled) =>
    let l := l.setClosing c (.stopping (left.erase f) cancelled)
    if (left.erase f).isEmpty then l.queue (.wakeClosing c) else l
  | _ => l

/-- Lets a shutdown go on that has got what it waited for. -/
def wakeClosing (l : Loader) (c : ClosingId) : Loader :=
  match l.closings.get? c with
  | some (.stopping [] true) => l.setClosing c (.over .cancelled)
  | some (.stopping [] false) => l.releaseClient c false
  | some (.releasing (some r)) => l.setClosing c (.over r)
  | _ => l

/-- The client has been closed, or has raised an error; tells whether a shutdown waited for it. -/
def clientClosed (l : Loader) (c : ClosingId) (problem : Option Fault) : Loader × Bool :=
  match l.closings.get? c with
  | some (.releasing none) =>
    let result := match problem with
      | none => .ok
      | some f => .fault f
    ((l.setClosing c (.releasing (some result))).queue (.wakeClosing c), true)
  | _ => (l, false)

/--
Cancels whoever waits for a shutdown; tells whether it was still under way. The fetches were
cancelled already, and the shutdown still waits for them.
-/
def cancelClosing (l : Loader) (c : ClosingId) : Loader × Bool :=
  match l.closings.get? c with
  | some (.ending _) => (l.setClosing c (.ending true), true)
  | some (.stopping left _) => (l.setClosing c (.stopping left true), true)
  | some (.releasing none) =>
    ((l.setClosing c (.releasing (some .cancelled))).queue (.wakeClosing c), true)
  | some (.releasing (some _)) => (l.setClosing c (.releasing (some .cancelled)), true)
  | _ => (l, false)

end SingleFlight.Loader
