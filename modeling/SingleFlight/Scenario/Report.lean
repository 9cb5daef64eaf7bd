/-
SingleFlight.Scenario.Report — what a scenario shows.

* `StepReport` — one step: its result, the state after it, the calls of scripts,
  the promises and tasks that ended, and the log.
* `Scenario.run` — a whole scenario.
-/
import SingleFlight.Scenario.Play

namespace SingleFlight.Scenario

/-- A named handle as it stands. -/
structure HandleRow where
  name : String
  handle : Handle

/-- The particulars of a kind of registry. -/
inductive RegistryState where
  | document (attached : Nat)
  | keyed (openFetches : Nat) (clientClosed : Bool)

/-- What is seen of a registry. -/
structure RegistryView where
  registered : List String
  known : List HandleRow
  state : RegistryState

/-- What is seen of the loads that wait. -/
structure LoadsView where
  active : Nat
  watchdogs : Nat

/-- What is seen of a cache. -/
structure CacheView where
  chunks : List (ChunkId × Entry)
  inFlight : Nat

/-- The state after a step. -/
structure View where
  registry : Option RegistryView
  loads : Option LoadsView
  cache : Option CacheView

/-- What one step shows. -/
structure StepReport where
  result : Result
  view : View
  remarks : List Remark
  settled : List (String × Outcome)
  /-- The promises that settled when the scenario was left after this step. -/
  parting : List (String × Outcome)
  ended : List (String × TaskEnd)
  log : List LogRecord
  /-- Whether the step aborts loads, whose order is of no account. -/
  unordered : Bool

namespace Session

/-- Names the handles that are seen for the first time. -/
def nameRegistered (s : Session) : Session :=
  s.loader.registry.handles.foldl (fun s h => (s.nameHandle h).1) s

/-- The rows of all named handles. -/
def handleRows (s : Session) : List HandleRow :=
  s.handleNames.zipIdx.filterMap fun (h, i) =>
    (s.loader.handles.get? h).map fun handle => { name := nameOf "h" i, handle }

/-- What is seen of the registry, all registered handles being named. -/
def registryView (s : Session) : RegistryView where
  registered := s.loader.registry.handles.map fun h => (s.nameHandle h).2
  known := s.handleRows
  state := match s.loader.registry with
    | .document _ attached => .document attached
    | .keyed _ client => .keyed s.loader.openFetches client.closed

/-- What is seen of the cache. -/
def cacheView (s : Session) : CacheView where
  chunks := s.loader.cache.entries.mergeSort fun a b => a.1.le b.1
  inFlight := s.loader.cache.inFlight.length

/-- The state of a session, all registered handles being named. -/
def view (s : Session) : View where
  registry := if s.focus.showsRegistry then some s.registryView else none
  loads :=
    if s.focus.showsLoads then
      some { active := s.loader.active.length, watchdogs := s.loader.watchdogs.length }
    else none
  cache := if s.focus.showsCache then some s.cacheView else none

/-- The tasks that ended and whose end was not told. -/
def freshEnds (s : Session) : List (TaskId × TaskEnd) :=
  s.loader.tasks.rows.zipIdx.filterMap fun (task, t) =>
    match task with
    | .over r => if s.told.contains t then none else some (t, r)
    | _ => none

/-- A session before a step: nothing has been seen of it. -/
def fresh (s : Session) : Session :=
  { s with remarks := [], settled := [], loader := { s.loader with log := [] } }

/-- Whether a step aborts loads, whose order is of no account. -/
def isUnordered : Step → Bool
  | .closeLoads => true
  | .close => true
  | .scope => true
  | _ => false

/-- Takes a step, runs the event loop, and tells what is to be seen. -/
def play (fuel : Nat) (s : Session) (step : Step) : Session × StepReport :=
  let (s, result) := act fuel s.fresh step
  let s := (settle fuel s).hearPromises.nameRegistered
  let ends := s.freshEnds
  ({ s with told := s.told ++ ends.map (·.1) },
    { result
      view := s.view
      remarks := s.remarks
      settled := s.settled
      parting := []
      ended := ends.map fun (t, r) => (nameOf "t" t, r)
      log := s.loader.log
      unordered := isUnordered step })

/-- Takes steps one after the other. -/
def playAll (fuel : Nat) (s : Session) : List Step → Session × List StepReport
  | [] => (s, [])
  | step :: rest =>
    let (s, report) := s.play fuel step
    let (s, reports) := playAll fuel s rest
    (s, report :: reports)

end Session

/-- The number of steps that the scripts of a setup bring with them. -/
def Setup.size : Setup → Nat
  | .cache _ _ starter hook =>
    starter.foldl (fun n turn => n + Session.stepsSize turn.steps + 1) 0 +
      (hook.getD []).foldl (fun n turn => n + Session.stepsSize turn.steps + 1) 0
  | _ => 0

/-- What a scenario shows: its steps, and the counters at its end. -/
structure Transcript where
  steps : List StepReport
  counters : Option (List ((String × Metrics.Tags) × Int))

namespace Session

/-- Cancels the tasks that are not over, in the order in which they were made. -/
def cancelTasks (s : Session) : Session :=
  { s with loader :=
      (List.range s.loader.tasks.size).foldl (fun l t => (l.cancelTask t).1) s.loader }

/-- The promises that settle when the session is left. -/
def parting (s : Session) : List (String × Outcome) :=
  ({ s with settled := [] }.cancelTasks.hearPromises).settled

end Session

/--
A report that stays open until the scenario is left: one that tells of settled promises also tells
of those that settle then.
-/
def StepReport.close (r : StepReport) (parting : List (String × Outcome)) : StepReport :=
  if r.settled.isEmpty then r else { r with parting }

/-- Closes the last of several reports. -/
def closeLast (parting : List (String × Outcome)) : List StepReport → List StepReport
  | [] => []
  | [r] => [r.close parting]
  | r :: rest => r :: closeLast parting rest

/-- A whole scenario. When it is over, the tasks that still wait are cancelled. -/
def run (setup : Setup) (steps : List Step) : Except Fault Transcript := do
  let s ← Session.start setup
  let fuel := Session.budget (setup.size + Session.stepsSize steps)
  let (s, reports) := s.playAll fuel steps
  return { steps := closeLast s.parting reports, counters := s.loader.sink.tallied? }

end SingleFlight.Scenario
