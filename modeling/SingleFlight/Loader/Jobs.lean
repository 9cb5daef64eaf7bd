/-
SingleFlight.Loader.Jobs — what the event loop runs.

* `Loader.runJob` — one job from the queue: the work it causes.
* `Loader.cancelPromise`, `Loader.cancelTask` — cancellation; cancelling a task
  that waits cancels the promises it waits for, whoever else waits for them.
* `Loader.respond` — the client's answer to the oldest question about an
  address.
* `Loader.fireNext?` — the next watchdog that is due by a given time.
-/
import SingleFlight.Loader.Flow

namespace SingleFlight.Loader

/-! ## Tasks -/

/-- Changes what a task waits for. -/
def changeWait (l : Loader) (t : TaskId) (f : Wait → Wait) : Loader :=
  { l with
    tasks := l.tasks.update t fun
      | .waiting w => .waiting (f w)
      | task => task }

/-- Starts a task: one that was cancelled ends, any other asks for its chunks. -/
def startTask (l : Loader) (t : TaskId) : Loader × List Frame :=
  match l.tasks.get? t with
  | some (.created _ true) => (l.endTask t .cancelled, [])
  | some (.created chunks false) => (l, [.collect t [] chunks])
  | _ => (l, [])

/-- The outcome of a wait in which the promise `p` settled last, if that decides it. -/
def decided (l : Loader) (w : Wait) (p : PromiseId) : Option Outcome :=
  match l.promises.outcome? p with
  | some .cancelled => some .cancelled
  | some (.failed f) => some (.failed f)
  | _ =>
    if (w.left.erase p).isEmpty then some (if w.cancelAsked then .cancelled else .ok) else none

/-- Tells a task that one of its promises settled; the first failure decides its wait. -/
def childSettled (l : Loader) (t : TaskId) (p : PromiseId) : Loader :=
  match l.tasks.get? t with
  | some (.waiting w) =>
    match w.outcome with
    | some _ => l.changeWait t fun w => { w with left := w.left.erase p }
    | none =>
      let outcome := l.decided w p
      let l := l.changeWait t fun w => { w with left := w.left.erase p, outcome }
      if outcome.isSome then l.queue (.wakeTask t) else l
  | _ => l

/-- Ends a task whose wait is decided. -/
def wakeTask (l : Loader) (t : TaskId) : Loader :=
  match l.tasks.get? t with
  | some (.waiting w) =>
    match w.outcome with
    | some o => l.endTask t (if w.mustCancel then .cancelled else .ofOutcome o)
    | none => l
  | _ => l

/-- Starts a task that waits for chunks; it runs when the loop gets to it. -/
def ensure (l : Loader) (chunks : List ChunkId) : Loader × TaskId :=
  let t := l.tasks.size
  ({ l with tasks := l.tasks.add (.created chunks false) }.queue (.startTask t), t)

/-! ## Cancellation -/

/-- Cancels a promise; tells whether it was pending. -/
def cancelPromise (l : Loader) (p : PromiseId) : Loader × Bool :=
  (l.settlePromise p .cancelled, l.promises.isPending p)

/-- Cancels a task; tells whether it was still to end. -/
def cancelTask (l : Loader) (t : TaskId) : Loader × Bool :=
  match l.tasks.get? t with
  | some (.created chunks _) =>
    ({ l with tasks := l.tasks.update t fun _ => .created chunks true }, true)
  | some (.waiting w) =>
    if w.outcome.isNone && w.children.any l.promises.isPending then
      let l := w.children.foldl (fun l p => (l.cancelPromise p).1) l
      (l.changeWait t ({ · with cancelAsked := true }), true)
    else (l.changeWait t ({ · with mustCancel := true }), true)
  | _ => (l, false)

/-! ## Fetches over HTTP -/

/-- The fetches with their numbers. -/
def numberedFetches (l : Loader) : List (Fetch × FetchId) :=
  l.fetches.rows.zipIdx

/-- How many fetches are not over. -/
def openFetches (l : Loader) : Nat :=
  l.fetches.rows.countP (·.stage ≠ .over)

/-- The oldest question about an address that the client has not answered. -/
def oldestAsked? (l : Loader) (url : String) : Option FetchId :=
  (l.numberedFetches.find? fun (fetch, _) =>
    fetch.stage = .asked && (l.handles.get? fetch.handle).any (·.url == url)).map (·.2)

/-- Lets the client answer a question about an address; tells whether there was one. -/
def respond (l : Loader) (url : String) (r : Reply) : Loader × Bool :=
  match l.oldestAsked? url with
  | some f => ((l.setStage f (.answered r)).queue (.answer f), true)
  | none => (l, false)

/-- The signal for a handle whose fetch is over. -/
def finishFetch (l : Loader) (h : HandleId) (type : String) : Loader × List Frame :=
  match l.handles.get? h with
  | some handle => (l, [.signal (handle.slotFor type) (l.signalFrom h type)])
  | none => (l, [])

/-- A fetch that brought no usable response. -/
def failFetch (l : Loader) (h : HandleId) (url : String) (status : Option Int)
    (message : String) : Loader × List Frame :=
  let l := l.changeHandle h (·.record fun d => { d with status, error := some message })
  let shown := match status with
    | some n => toString n
    | none => "None"
  (l.note .fetches .warning
    ("Fetch of " ++ url ++ " failed (status=" ++ shown ++ "): " ++ message)).finishFetch h "error"

/-- Whether a status reports success. -/
def isSuccess (status : Int) : Bool :=
  200 ≤ status && status ≤ 299

/-- What the client's answer does to the handle it was asked for. -/
def takeReply (l : Loader) (h : HandleId) (url : String) : Reply → Loader × List Frame
  | .response status content complaint =>
    if isSuccess status then
      (l.changeHandle h (·.record fun d =>
        { d with status := some status, content := some content })).finishFetch h "load"
    else l.failFetch h url (some status) complaint
  | .failed message => l.failFetch h url none message
  | .unsendable kind message =>
    let shown := if message = "" then kind else message
    let l := l.changeHandle h (·.record fun d => { d with error := some shown })
    (l.note .fetches .error ("Fetch of " ++ quoted url ++ " could not be issued")).finishFetch h
      "error"

/-- Hands the client's answer to a fetch; one that was cancelled just ends. -/
def takeAnswer (l : Loader) (f : FetchId) : Loader × List Frame :=
  match l.fetches.get? f with
  | some { handle := h, stage := .answered r } =>
    match l.handles.get? h with
    | some handle => (l.endFetch f).takeReply h handle.url r
    | none => (l, [])
  | some { stage := .stopping, .. } => (l.endFetch f, [])
  | _ => (l, [])

/-- The client's answer for a handle, where it gives one at once. -/
def promptFor? (l : Loader) (h : HandleId) : Option Reply :=
  (l.handles.get? h).bind fun handle => l.prompts.get? handle.url

/--
Asks the client for a handle. An answer that it gives at once, such as that the address makes no
request, is taken at once too. A fetch that was cancelled before it began just ends.
-/
def ask (l : Loader) (f : FetchId) : Loader × List Frame :=
  match l.fetches.get? f with
  | some { handle := h, stage := .created } =>
    match l.promptFor? h with
    | some r => (l.setStage f (.answered r)).takeAnswer f
    | none => (l.setStage f .asked, [])
  | some { stage := .stopping, .. } => (l.endFetch f, [])
  | _ => (l, [])

/-! ## The queue -/

/-- Runs a job; the frames are the work that it leaves to do. -/
def runJob (l : Loader) : Job → Loader × List Frame
  | .report chunk e => l.report chunk e
  | .startTask t => l.startTask t
  | .childSettled t p => (l.childSettled t p, [])
  | .wakeTask t => (l.wakeTask t, [])
  | .ask f => l.ask f
  | .answer f => l.takeAnswer f
  | .forget _ => (l, [])
  | .fetchEnded c f => (l.fetchEnded c f, [])
  | .wakeClosing c => (l.wakeClosing c, [])

/-- Takes the next job off the queue. -/
def nextJob? (l : Loader) : Option (Job × Loader) :=
  match l.ready with
  | [] => none
  | j :: rest => some (j, { l with ready := rest })

/-! ## The clock -/

/-- Lets the watchdog that is due first by `target` fire: its time has come, and its load ends. -/
def fireNext? (l : Loader) (target : Float) : Option (Loader × List Frame) :=
  (l.nextDue? target).map fun w =>
    ({ l with now := w.due }.disarm w.attempt,
      [.signal { waiting := [w.attempt] } (l.endSignal w.attempt "timeout")])

/-- Moves the clock. -/
def setClock (l : Loader) (now : Float) : Loader :=
  { l with now }

end SingleFlight.Loader
