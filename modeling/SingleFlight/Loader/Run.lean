/-
SingleFlight.Loader.Run — all the ways in which a loader can be used.

The code that a loader calls is not known. What it can do is: invoke operations,
any number of them, then return or raise an error. So a use of a loader is a
list of moves, and a state of the use is the loader with the calls under way,
the innermost first. The event loop runs a job, and the clock moves, only while
no call is under way.

* `Move`, `Run.step` — the moves, and what each one does.
* `Run.Reachable` — the states that moves of a given kind can lead to.
-/
import SingleFlight.Loader.Opening
import SingleFlight.Loader.Operation

namespace SingleFlight

/-- A call of the user's code that has not returned. -/
structure Suspension where
  call : Call
  /-- The work that goes on when the call returns. -/
  rest : List Frame
  /-- What the operation answers when that work is done; a job has no answer. -/
  answer : Option Answer
deriving DecidableEq, Repr

/-- A loader in use. -/
structure Run where
  loader : Loader
  /-- The calls under way, the innermost first. -/
  suspended : List Suspension := []
  /-- All calls of the user's code so far, in order. -/
  calls : List Call := []
  /-- The answers that operations gave so far, in order. -/
  answers : List Answer := []

/-- What can happen next to a loader in use. -/
inductive Move where
  | invoke (op : Operation)
  /-- The innermost call returns. -/
  | returns
  /-- The innermost call raises an error. -/
  | raises (f : Fault)
  /-- The event loop runs its next job. -/
  | runJob
  /-- The watchdog that is due first by a time fires. -/
  | fire (target : Float)
  | setClock (now : Float)
  /-- The active loads are looked at in another order from now on; no order of them is promised. -/
  | reorder (active : List AttemptId)
  /-- What the loader asks at once is answered otherwise from now on. -/
  | replan (resolve : ChunkId → Except Fault String) (hasAsset : ChunkId → Bool)

namespace Run

/-- No call is under way. -/
def idle (r : Run) : Bool :=
  r.suspended.isEmpty

/-- The use after some work has come to its end or to a call. -/
def after (r : Run) (answer : Option Answer) : Loader × Progress → Run
  | (loader, .finished) => { r with loader, answers := r.answers ++ answer.toList }
  | (loader, .raised _) => { r with loader }
  | (loader, .calling call rest) =>
    { r with
      loader
      suspended := { call, rest, answer } :: r.suspended
      calls := r.calls ++ [call] }

/-- One move. A move that is not possible changes nothing. -/
def step (r : Run) : Move → Run
  | .invoke op =>
    match r.loader.invoke op with
    | (loader, .error _) => { r with loader }
    | (loader, .ok (answer, work)) => r.after (some answer) (loader.drive work)
  | .returns =>
    match r.suspended with
    | [] => r
    | s :: outer => { r with suspended := outer }.after s.answer (r.loader.drive s.rest)
  | .raises f =>
    match r.suspended with
    | [] => r
    | s :: outer => { r with suspended := outer }.after s.answer (r.loader.unwind f s.rest)
  | .runJob =>
    match r.idle, r.loader.nextJob? with
    | true, some (job, loader) =>
      let (loader, work) := loader.runJob job
      r.after none (loader.drive work)
    | _, _ => r
  | .fire target =>
    match r.idle, r.loader.fireNext? target with
    | true, some (loader, work) => r.after none (loader.drive work)
    | _, _ => r
  | .setClock now => if r.idle then { r with loader := r.loader.setClock now } else r
  | .reorder active =>
    if active.isPerm r.loader.active then { r with loader := { r.loader with active } } else r
  | .replan resolve hasAsset => { r with loader := r.loader.replan resolve hasAsset }

/-- The use after several moves. -/
def steps (r : Run) (moves : List Move) : Run :=
  moves.foldl step r

/-- The states of a use that starts at `r` and whose moves are all allowed where they are made. -/
inductive Reachable (allowed : Run → Move → Prop) (r : Run) : Run → Prop where
  | start : Reachable allowed r r
  | step {r' : Run} {m : Move} (h : Reachable allowed r r') (hm : allowed r' m) :
      Reachable allowed r (r'.step m)

/-- From a reachable state, allowed moves lead to reachable states. -/
theorem Reachable.steps {allowed : Run → Move → Prop} {r r' : Run} (h : Reachable allowed r r')
    (moves : List Move) (hm : ∀ s m, m ∈ moves → allowed s m) :
    Reachable allowed r (r'.steps moves) := by
  induction moves generalizing r' with
  | nil => exact h
  | cons m ms ih =>
    exact ih (.step h (hm r' m (List.mem_cons_self ..)))
      fun s m' hs => hm s m' (List.mem_cons_of_mem _ hs)

end Run

end SingleFlight
