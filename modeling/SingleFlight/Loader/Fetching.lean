/-
SingleFlight.Loader.Fetching — loads and the handles they wait for.

* `Loader.load` — waits for the registered handle of a chunk, or makes one.
* `Loader.conclude` — ends a load once: the handle is released, the watchdog
  disarmed, and a handle that failed is no longer registered.
* `Loader.attach` — registers a handle and, where handles are fetched, queues
  its fetch.
-/
import SingleFlight.Loader.Basic

namespace SingleFlight.Loader

/-- The counter of handles. -/
def handlesTotal : String := "chunk_handles_total"

/-- The counter of outcomes. -/
def outcomesTotal : String := "chunk_load_outcomes_total"

/-- Adds a handle to the table. -/
def newHandle (l : Loader) (h : Handle) : Loader × HandleId :=
  ({ l with handles := l.handles.add h }, l.handles.size)

/-- Changes one handle. -/
def changeHandle (l : Loader) (h : HandleId) (f : Handle → Handle) : Loader :=
  { l with handles := l.handles.update h f }

/-! ## The registry -/

/-- Queues the fetch of a handle. -/
def startFetch (l : Loader) (h : HandleId) : Loader :=
  { l with fetches := l.fetches.add { handle := h } }.queue (.ask l.fetches.size)

/-- Registers a handle; a registry that fetches refuses handles that cannot hold a download. -/
def attach (l : Loader) (h : HandleId) : Loader × Option Fault :=
  match l.handles.get? h with
  | none => (l, none)
  | some handle =>
    if l.registry.fetches then
      if handle.download.isNone then (l, some .notFetchable)
      else ({ l with registry := l.registry.attach h handle.url }.startFetch h, none)
    else ({ l with registry := l.registry.attach h handle.url }, none)

/-- Takes a handle out of the registry. -/
def remove (l : Loader) (h : HandleId) : Loader :=
  match l.handles.get? h with
  | none => l
  | some handle => { l with registry := l.registry.remove h handle.url }

/-! ## Watchdogs -/

/-- Arms the watchdog of a load. -/
def arm (l : Loader) (a : AttemptId) : Loader :=
  { l with watchdogs := l.watchdogs ++ [⟨a, l.now + l.plan.policy.timeout⟩] }

/-- Disarms the watchdog of a load. -/
def disarm (l : Loader) (a : AttemptId) : Loader :=
  { l with watchdogs := l.watchdogs.filter (·.attempt ≠ a) }

/-- The earlier of two watchdogs, of two that are due at once the one armed first. -/
def earlier (w w' : Watchdog) : Watchdog :=
  if w'.due < w.due then w' else w

/-- The watchdog that fires first among those due by `target`. -/
def nextDue? (l : Loader) (target : Float) : Option Watchdog :=
  match l.watchdogs.filter (·.due ≤ target) with
  | [] => none
  | w :: ws => some (ws.foldl earlier w)

/-! ## Loads -/

/-- How a load gets its handle, as counters and the log tell it. -/
inductive HandleMode where
  | created
  /-- The handle is registered and its outcome is still open. -/
  | adoptedLoading
  /-- The handle is registered and nobody waits for it any more. -/
  | adoptedComplete
deriving DecidableEq, Repr

/-- The word for a mode. -/
def HandleMode.word : HandleMode → String
  | created => "created"
  | adoptedLoading => "adopted_loading"
  | adoptedComplete => "adopted_complete"

/-- The handle for a chunk's address: the registered one, or a new one that is not registered. -/
def handleFor (l : Loader) (chunk : ChunkId) (url : String) :
    Loader × HandleId × HandleMode :=
  match l.findHandle chunk url with
  | some h =>
    (l, h, if (l.handles.get? h).any (·.loading) then .adoptedLoading else .adoptedComplete)
  | none =>
    let made := l.registry.make url (some (l.plan.policy.tagFor chunk))
    let (l, h) := l.newHandle { made with loading := true }
    (l, h, .created)

/-- Makes a load wait for its handle. -/
def watch (l : Loader) (a : AttemptId) (h : HandleId) : Loader :=
  let l := (l.arm a).changeHandle h (·.observe a)
  { l with active := l.active ++ [a] }

/-- The log record of a load's beginning. -/
def noteLoad (l : Loader) (chunk : ChunkId) (url : String) (h : HandleId) (mode : HandleMode) :
    Loader :=
  let found := ((l.handles.get? h).map (·.url)).getD url
  match mode with
  | .created =>
    l.note .loads .info
      ("Fetching " ++ l.plan.policy.assetKind ++ " chunk " ++ chunk.text ++ " from " ++ url)
  | .adoptedLoading =>
    l.note .loads .info
      ("Adopted in-flight fetch for chunk " ++ chunk.text ++ " (" ++ found ++ ")")
  | .adoptedComplete =>
    l.note .loads .debug
      ("Adopted completed fetch for chunk " ++ chunk.text ++ " (" ++ found ++ ")")

/--
Starts a load, or joins it to the fetch of a registered handle. The answer is the handle and, if
that handle is complete already, the load that is to be concluded at once.
-/
def load (l : Loader) (chunk : ChunkId) (url : String) (done : Done) :
    Loader × Except Fault (HandleId × Option AttemptId) :=
  let (l, h, mode) := l.handleFor chunk url
  match l.count handlesTotal ("mode", mode.word) with
  | (l, some f) => (l, .error f)
  | (l, none) =>
    let a := l.attempts.size
    let l := { l with attempts := l.attempts.add { chunk, handle := h, done } }
    match mode with
    | .created =>
      match ((l.watch a h).noteLoad chunk url h mode).attach h with
      | (l, some f) => (l, .error f)
      | (l, none) => (l, .ok (h, none))
    | .adoptedLoading => ((l.watch a h).noteLoad chunk url h mode, .ok (h, none))
    | .adoptedComplete => (l.noteLoad chunk url h mode, .ok (h, some a))

/-- The log record of a load's end. -/
def noteOutcome (l : Loader) (chunk : ChunkId) (e : LoadEvent) : Loader :=
  if e.isLoad then
    l.note .loads .debug
      ("Chunk " ++ chunk.text ++ " loaded from " ++ optionText e.request)
  else
    l.note .loads .info
      ("Chunk " ++ chunk.text ++ " fetch ended with " ++ e.type ++ " (" ++
        optionText e.request ++ ")")

/-- Takes a load out of everything that waits: its handle, its watchdog, the active loads. -/
def detach (l : Loader) (a : AttemptId) (h : HandleId) (e : LoadEvent) : Loader :=
  let l := { l with attempts := l.attempts.update a ({ · with settled := true }) }
  let l := (l.changeHandle h (·.release)).disarm a
  let l := if e.isLoad then l else l.remove h
  { l with active := l.active.filter (· ≠ a) }

/-- Ends a load, up to telling anyone. -/
def conclude (l : Loader) (a : AttemptId) (attempt : Attempt) (e : LoadEvent) :
    Loader × Option Fault :=
  match (l.detach a attempt.handle e).count outcomesTotal ("outcome", e.type) with
  | (l, some f) => (l, some f)
  | (l, none) => (l.noteOutcome attempt.chunk e, none)

/-- The first active load of a chunk. -/
def activeFor? (l : Loader) (chunk : ChunkId) : Option AttemptId :=
  l.active.find? fun a => (l.attempts.get? a).any (·.chunk == chunk)

end SingleFlight.Loader
