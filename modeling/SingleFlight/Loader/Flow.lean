/-
SingleFlight.Loader.Flow — work that calls the user's code in its middle.

A loader calls code that it does not know: observers of handles and loads, a
starter, a hook. That code may use the loader again before it returns, and it
may raise an error. So work is a stack of frames. Working through it
(`Loader.drive`) stops at each call and hands out the call with the frames that
are left; whoever made the call goes on with them when the code returns, or
unwinds them when it raises (`Loader.unwind`).

Each frame is worked through by recursion on its own data, so none of this needs
a bound:

* `Loader.signal` — an observer chain, load by load;
* `Loader.abortAll` — the loads that a shutdown ends;
* `Loader.collect` — the chunks that a task asks for;
* `Loader.drive` — the stack, frame by frame.
-/
import SingleFlight.Loader.Closing
import SingleFlight.Loader.Entries
import SingleFlight.Loader.Fetching

namespace SingleFlight

/-- A call of the user's code. -/
inductive Call where
  /-- A load tells its outcome. -/
  | tell (a : AttemptId) (k : CallbackId) (e : LoadEvent)
  /-- The observer behind the loads of a handle hears a signal. -/
  | observe (k : CallbackId) (e : LoadEvent)
  /-- The starter is to fetch the chunk of a ticket. -/
  | start (t : Ticket)
  /-- The hook sees a report before the cache acts on it. -/
  | consult (chunk : ChunkId) (e : LoadEvent)
deriving DecidableEq, Repr

/-- A piece of work that is still to be done. -/
inductive Frame where
  /-- The rest of an observer chain hears a signal. -/
  | signal (s : Slot) (e : LoadEvent)
  /-- The rest of the active loads are aborted. -/
  | abort (attempts : List AttemptId)
  /-- An attempt is to be started. -/
  | start (t : Ticket)
  /-- An attempt is being started; an error abandons it. -/
  | started (t : Ticket)
  /-- A request is answered. -/
  | hand (chunk : ChunkId) (p : PromiseId)
  /-- A report goes to the fetch side first. -/
  | consult (chunk : ChunkId) (e : LoadEvent)
  /-- The report ends the attempt it was made for, if that is still in flight. -/
  | settle (t : Ticket) (e : LoadEvent)
  /-- A shutdown goes on with the cache and the registry; an error ends it. -/
  | shut (c : ClosingId)
  /-- A task asks for the rest of its chunks; an error ends the task. -/
  | collect (t : TaskId) (got : List PromiseId) (rest : List ChunkId)
deriving DecidableEq, Repr

/-- What working through one frame comes to. -/
inductive Flow where
  | through
  /-- The user's code is to be called, and these frames remain of the one at hand. -/
  | calls (c : Call) (rest : List Frame)
  | fails (f : Fault)

/-- What working through a stack comes to. -/
inductive Progress where
  | finished
  | raised (f : Fault)
  /-- The user's code is to be called, and these frames are left for afterwards. -/
  | calling (c : Call) (rest : List Frame)

namespace Loader

/-! ## Observers -/

/--
Tells a signal to a chain of loads, the newest first, and then to the observer behind them. A
load that has its outcome already stops the signal.
-/
def signal (e : LoadEvent) (foreign : Option CallbackId) :
    List AttemptId → Loader → Loader × Flow
  | [], l =>
    match foreign with
    | none => (l, .through)
    | some k => (l, .calls (.observe k e) [])
  | a :: rest, l =>
    match l.attempts.get? a with
    | none => (l, .through)
    | some attempt =>
      if attempt.settled then (l, .through)
      else
        match l.conclude a attempt e with
        | (l, some f) => (l, .fails f)
        | (l, none) =>
          match attempt.done with
          | .redeem t => signal e foreign rest (l.redeem t e)
          | .call k => (l, .calls (.tell a k e) [.signal ⟨rest, foreign⟩ e])

/-- Ends one load by a signal from outside its handle. -/
def settleLoad (a : AttemptId) (e : LoadEvent) (l : Loader) : Loader × Flow :=
  signal e none [a] l

/-- A signal that the loader itself ends a load by; its source is the load's own handle. -/
def endSignal (l : Loader) (a : AttemptId) (type : String) : LoadEvent :=
  { type, source := (l.attempts.get? a).bind fun attempt => l.sourceOf attempt.handle }

/-- Aborts loads one after the other. -/
def abortAll : List AttemptId → Loader → Loader × Flow
  | [], l => (l, .through)
  | a :: rest, l =>
    match l.settleLoad a (l.endSignal a "abort") with
    | (l, .through) => abortAll rest l
    | (l, .calls c left) => (l, .calls c (left ++ [.abort rest]))
    | (l, .fails f) => (l, .fails f)

/-! ## Starting attempts -/

/-- Fetches the chunk of a ticket from the address that it has. -/
def fetch (resolve : ChunkId → Except Fault String) (t : Ticket) (l : Loader) : Loader × Flow :=
  match resolve t.chunk with
  | .error f => (l.abandon t, .fails f)
  | .ok url =>
    match l.load t.chunk url (.redeem t) with
    | (l, .error f) => (l.abandon t, .fails f)
    | (l, .ok (_, none)) => (l, .through)
    | (l, .ok (h, some a)) =>
      match l.settleLoad a (l.signalFrom h "load") with
      | (l, .fails f) => (l.abandon t, .fails f)
      | (l, .calls c left) => (l, .calls c (left ++ [.started t]))
      | (l, .through) => (l, .through)

/-- Starts an attempt. -/
def start (t : Ticket) (l : Loader) : Loader × Flow :=
  match l.plan.wiring with
  | .user _ => (l, .calls (.start t) [.started t])
  | .fetch resolve => l.fetch resolve t

/-- Refuses requests after a shutdown, and skips a chunk that has nothing to fetch. -/
def request (l : Loader) (chunk : ChunkId) :
    Loader × Except Fault (PromiseId × Option Ticket) :=
  if l.closed then (l, .error .closed)
  else if l.plan.hasAsset chunk then l.serve chunk
  else (l.mark chunk .skipped).serve chunk

/-! ## Reports -/

/-- A report for a chunk: the work it causes, if the chunk is in flight. -/
def report (l : Loader) (chunk : ChunkId) (e : LoadEvent) : Loader × List Frame :=
  match l.cache.ticketOf? chunk with
  | none => (l.noteIdle chunk e, [])
  | some t => (l, [.consult chunk e, .settle t e])

/-- Passes a report to the fetch side. -/
def consult (chunk : ChunkId) (e : LoadEvent) (l : Loader) : Loader × Flow :=
  match l.plan.wiring with
  | .user false => (l, .through)
  | .user true => (l, .calls (.consult chunk e) [])
  | .fetch _ =>
    match l.activeFor? chunk with
    | none => (l, .through)
    | some a => l.settleLoad a e

/-! ## Tasks -/

/-- Ends a task. -/
def endTask (l : Loader) (t : TaskId) (r : TaskEnd) : Loader :=
  { l with tasks := l.tasks.update t fun _ => .over r }

/-- Makes a task wait for promises; it hears at once of those that have settled. -/
def await (l : Loader) (t : TaskId) (promises : List PromiseId) : Loader :=
  match promises.eraseDups with
  | [] => l.endTask t .ok
  | children =>
    let settled := children.filter fun p => !l.promises.isPending p
    { l with
      tasks := l.tasks.update t fun _ => .waiting { children, left := children }
      ready := l.ready ++ settled.map (.childSettled t) }

/-- Requests the chunks of a task one after the other, then waits for them all. -/
def collect (t : TaskId) : List PromiseId → List ChunkId → Loader → Loader × Flow
  | got, [], l => (l.await t got, .through)
  | got, chunk :: rest, l =>
    match l.request chunk with
    | (l, .error f) => (l.endTask t (.fault f), .through)
    | (l, .ok (p, none)) => collect t (got ++ [p]) rest (l.hand chunk p)
    | (l, .ok (p, some ticket)) =>
      match l.start ticket with
      | (l, .through) => collect t (got ++ [p]) rest (l.hand chunk p)
      | (l, .fails f) => (l.endTask t (.fault f), .through)
      | (l, .calls c left) =>
        (l, .calls c (left ++ [.hand chunk p, .collect t (got ++ [p]) rest]))

/-! ## Stacks -/

/-- Works through one frame. -/
def perform (l : Loader) : Frame → Loader × Flow
  | .signal s e => signal e s.foreign s.waiting l
  | .abort attempts => abortAll attempts l
  | .start t => l.start t
  | .started _ => (l, .through)
  | .hand chunk p => (l.hand chunk p, .through)
  | .consult chunk e => l.consult chunk e
  | .settle t e => (if l.cache.honours t then l.settleEntry t e else l, .through)
  | .shut c => (l.closeCache.closeRegistry c, .through)
  | .collect t got rest => collect t got rest l

/--
Unwinds a stack after an error, up to the end of the task whose work it was. A shutdown that is
unwound does not get to the cache and the registry.
-/
def unwind (f : Fault) : List Frame → Loader → Loader × Progress
  | [], l => (l, .raised f)
  | .started t :: rest, l => unwind f rest (l.abandon t)
  | .shut c :: rest, l => unwind f rest (l.setClosing c (.over (.fault f)))
  | .collect t _ _ :: _, l => (l.endTask t (.fault f), .finished)
  | _ :: rest, l => unwind f rest l

/-- Works through a stack up to the next call of the user's code. -/
def drive : List Frame → Loader → Loader × Progress
  | [], l => (l, .finished)
  | frame :: rest, l =>
    match l.perform frame with
    | (l, .through) => drive rest l
    | (l, .calls c left) => (l, .calling c (left ++ rest))
    | (l, .fails f) => unwind f rest l

end Loader

end SingleFlight
