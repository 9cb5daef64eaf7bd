/-
SingleFlight.Scenario.Play — scenarios, step by step.

A step asks the loader for an operation and works through what it leaves to do;
each call of a script is made on the way, and its own steps are taken at once.
When the step is done, the event loop runs until nothing is ready.

Scripts call each other only as often as they have steps to take, since the
steps of an observer are taken at its first call alone. The functions here take
a number that goes down at each call; `Session.budget` is larger than the number
of calls that the steps of a scenario can make.

* `Session.act` — one step, with the calls it makes.
* `Session.settle` — the event loop.
* `Session.play` — one step of a scenario, and what it shows.
-/
import SingleFlight.Scenario.Session

namespace SingleFlight.Scenario.Session

/-! ## Small steps -/

/-- Looks at a handle of a name. -/
def withHandle (s : Session) (name : String) (f : HandleId → Session × Result) :
    Session × Result :=
  match s.handle? name with
  | some h => f h
  | none => (s, .fault (.missing name))

/-- A step that changes nothing. -/
def shows (s : Session) (v : Value) : Session × Result :=
  (s, .value v)

/-- A result that may be refused. -/
def showsText (s : Session) : Except Fault String → Session × Result
  | .ok t => (s, .value (.text t))
  | .error f => (s, .fault f)

/-- The address of a chunk, where the loader knows addresses. -/
def addressOf (s : Session) (chunk : ChunkId) : Except Fault String :=
  match s.loader.plan.wiring with
  | .fetch resolve => resolve chunk
  | .user _ => .error (.noAddress chunk)

/-- Saves the slots of a handle under a name. -/
def saveSlots (s : Session) (h : HandleId) (name : String) : Session × Result :=
  match s.loader.handles.get? h with
  | none => (s, .value .nothing)
  | some handle =>
    ({ s with saved := s.saved.put name (handle.onLoad, handle.onError) },
      .value (.slots handle.onLoad.isSet handle.onError.isSet))

/-- A saved slot that holds an observer. -/
def savedSlot? (s : Session) (name : String) (onLoad : Bool) : Option Slot :=
  (s.saved.get? name).bind fun (load, error) =>
    let slot := if onLoad then load else error
    if slot.isSet then some slot else none

/-- The ticket of the starter's call of a number, the first of which is zero. -/
def ticket? (s : Session) (call : Int) : Option Ticket :=
  if 0 ≤ call then s.tickets[call.toNat]? else none

/-- Takes the steps of an observer, so that they are taken once. -/
def spend (s : Session) (k : CallbackId) : Session :=
  { s with
    scripts := s.scripts.update k fun
      | .observer name _ raises => .observer name [] raises
      | .nobody => .nobody }

/-- The next turn of the starter; one that has none left does nothing. -/
def starterTurn (s : Session) : Session × StarterTurn :=
  match s.starter with
  | [] => (s, {})
  | turn :: rest => ({ s with starter := rest }, turn)

/-- The next turn of the hook; one that has none left does nothing. -/
def hookTurn (s : Session) : Session × HookTurn :=
  match s.hook with
  | [] => (s, {})
  | turn :: rest => ({ s with hook := rest }, turn)

/-- The error that a script raises at its end. -/
def raised (text : Option String) : Option Fault :=
  text.map .foreign

/--
Settles the attempt of a ticket, as the starter does before it ends. The error it ends with is
that of a signal from a handle that there is not, or else its own.
-/
def settleAtOnce (s : Session) (t : Ticket) (turn : StarterTurn) : Session × Option Fault :=
  match turn.settles with
  | none => (s, raised turn.raises)
  | some e =>
    match s.event e with
    | .ok e => ({ s with loader := s.loader.redeem t e }, raised turn.raises)
    | .error f => (s, some f)

/-- Runs a job as far as it calls no script, and tells what work is left. -/
def runJob (s : Session) (j : Job) : Session × List Frame :=
  let asked := match j with
    | .ask f => match s.loader.fetches.get? f with
      | some { handle := h, stage := .created } =>
        ((s.loader.handles.get? h).map fun handle => Remark.asked handle.url).toList
      | _ => []
    | _ => []
  let (loader, work) := s.loader.runJob j
  ({ s with loader, remarks := s.remarks ++ asked }, work)

/-- An error raised inside a job: one of a fetch ends with its task, any other is lost. -/
def loseJobFault (s : Session) (j : Job) (f : Fault) : Session :=
  match j with
  | .ask _ => s
  | .answer _ => s
  | _ => s.remark (.lost f)

/-- Closes the client for the first shutdown that waits for that, if there is one. -/
def closeClient? (s : Session) : Option Session :=
  (s.loader.closings.rows.findIdx? (·.awaitsClient)).map fun c =>
    { s with loader := (s.loader.clientClosed c none).1 }

/-! ## Steps and calls -/

mutual

/-- Invokes an operation and does the work it leaves. -/
def perform (fuel : Nat) (s : Session) (op : Operation) : Session × Except Fault Answer :=
  match fuel with
  | 0 => (s, .ok .nothing)
  | fuel + 1 =>
    match s.loader.invoke op with
    | (loader, .error f) => ({ s with loader }, .error f)
    | (loader, .ok (a, work)) =>
      let (loader, progress) := loader.drive work
      match goOn fuel { s with loader } progress with
      | (s, some f) => (s, .error f)
      | (s, none) => (s, .ok a)

/-- Goes on with work that has come to a call, and tells the error that it ends with, if any. -/
def goOn (fuel : Nat) (s : Session) (p : Progress) : Session × Option Fault :=
  match fuel with
  | 0 => (s, none)
  | fuel + 1 =>
    match p with
    | .finished => (s, none)
    | .raised f => (s, some f)
    | .calling c rest =>
      match call fuel s c with
      | (s, none) =>
        let (loader, p) := s.loader.drive rest
        goOn fuel { s with loader } p
      | (s, some f) =>
        let (loader, p) := s.loader.unwind f rest
        goOn fuel { s with loader } p

/-- Calls a script, and tells the error that it raises, if any. -/
def call (fuel : Nat) (s : Session) (c : Call) : Session × Option Fault :=
  match fuel with
  | 0 => (s, none)
  | fuel + 1 =>
    match c with
    | .tell _ k e => hear fuel s k e
    | .observe k e => hear fuel s k e
    | .start t =>
      let s := s.remark (.starting t.chunk)
      let (s, turn) := { s with tickets := s.tickets ++ [t] }.starterTurn
      (actAll fuel s "start" turn.steps).settleAtOnce t turn
    | .consult chunk e =>
      let (s, turn) := (s.remark (.consulted chunk e.type e.request)).hookTurn
      (actAll fuel s "settle" turn.steps, raised turn.raises)

/-- Lets an observer hear a signal, and tells the error that it raises, if any. -/
def hear (fuel : Nat) (s : Session) (k : CallbackId) (e : LoadEvent) : Session × Option Fault :=
  match fuel with
  | 0 => (s, none)
  | fuel + 1 =>
    match s.scripts.get? k with
    | some (.observer name steps raises) =>
      let s := (s.remark (.observed name e.type e.request)).spend k
      (actAll fuel s name steps, raised raises)
    | some .nobody => (s, some .noObserver)
    | none => (s, none)

/-- Takes the steps of a script. -/
def actAll (fuel : Nat) (s : Session) (name : String) (steps : List Step) : Session :=
  match fuel with
  | 0 => s
  | fuel + 1 =>
    match steps with
    | [] => s
    | step :: rest =>
      let (s, r) := act fuel s step
      actAll fuel (s.remark (.step name r)) name rest

/-- Invokes an operation and names its answer. -/
def ask (fuel : Nat) (s : Session) (op : Operation) : Session × Result :=
  match fuel with
  | 0 => (s, .value .nothing)
  | fuel + 1 =>
    match perform fuel s op with
    | (s, .error f) => (s, .fault f)
    | (s, .ok a) => let (s, v) := s.valueOf a; (s, .value v)

/-- Invokes an operation that takes a scripted signal. -/
def askWith (fuel : Nat) (s : Session) (e : EventSpec) (op : LoadEvent → Operation) :
    Session × Result :=
  match fuel with
  | 0 => (s, .value .nothing)
  | fuel + 1 =>
    match s.event e with
    | .ok e => ask fuel s (op e)
    | .error f => (s, .fault f)

/-- Requests chunks one after the other, and names the promises when all are there. -/
def gather (fuel : Nat) (s : Session) (got : List PromiseId) (chunks : List ChunkId) :
    Session × Result :=
  match fuel with
  | 0 => (s, .value .nothing)
  | fuel + 1 =>
    match chunks with
    | [] => let (s, names) := s.namePromises got; (s, .value (.names names))
    | chunk :: rest =>
      match perform fuel s (.request chunk) with
      | (s, .error f) => (s, .fault f)
      | (s, .ok (.promise p)) => gather fuel s (got ++ [p]) rest
      | (s, .ok _) => gather fuel s got rest

/-- Runs the jobs of the event loop until none is ready; a client is closed without delay. -/
def settle (fuel : Nat) (s : Session) : Session :=
  match fuel with
  | 0 => s
  | fuel + 1 =>
    match s.loader.nextJob? with
    | none =>
      match s.closeClient? with
      | none => s
      | some s => settle fuel s
    | some (j, loader) =>
      let (s, work) := { s with loader }.runJob j
      let (loader, progress) := s.loader.drive work
      match goOn fuel { s with loader } progress with
      | (s, none) => settle fuel s
      | (s, some f) => settle fuel (s.loseJobFault j f)

/-- Lets the watchdogs that are due by `target` fire, each with all that it makes ready. -/
def advance (fuel : Nat) (s : Session) (target : Float) : Session :=
  match fuel with
  | 0 => s
  | fuel + 1 =>
    match s.loader.fireNext? target with
    | none => s
    | some (loader, work) =>
      let (loader, progress) := loader.drive work
      match goOn fuel { s with loader } progress with
      | (s, none) => advance fuel (settle fuel s) target
      | (s, some f) => advance fuel (settle fuel (s.remark (.lost f))) target

/-- Takes one step. -/
def act (fuel : Nat) (s : Session) (step : Step) : Session × Result :=
  match fuel with
  | 0 => (s, .value .nothing)
  | fuel + 1 =>
    match step with
    | .request chunk => ask fuel s (.request chunk)
    | .gather chunks => gather fuel s [] chunks
    | .ensure chunks => ask fuel s (.ensure chunks)
    | .cancel which =>
      match s.promise? which, s.task? which with
      | some p, _ => ask fuel s (.cancelPromise p)
      | none, some t => ask fuel s (.cancelTask t)
      | none, none => (s, .fault (.missing which))
    | .mark chunk e => ask fuel s (.mark chunk e)
    | .state chunk => s.shows (.text (s.loader.cache.state chunk).word)
    | .attempts chunk => s.shows (.number (s.loader.cache.attemptsAt chunk))
    | .report chunk e => askWith fuel s e (.report chunk)
    | .reportLater chunk e => askWith fuel s e (.reportLater chunk)
    | .redeem i e =>
      match s.ticket? i with
      | some t => askWith fuel s e (.redeem t)
      | none => (s, .fault (.missing (toString i)))
    | .closeCache => ask fuel s .closeCache
    | .closeLoads => ask fuel s .closeLoads
    | .close => ask fuel s (if s.focus = .whole then .close else .closeRegistry)
    | .scope =>
      match ask fuel s .close with
      | (s, .value _) => (s, .value (.flag true))
      | r => r
    | .load chunk url done =>
      let (s, k) := s.register done
      ask fuel s (.load chunk url (.call k))
    | .settle chunk e => askWith fuel s e (.settle chunk)
    | .find chunk url =>
      let (s, v) := s.valueOfHandle? (s.loader.findHandle chunk url)
      (s, .value v)
    | .tag chunk => s.shows (.text (s.loader.plan.policy.tagFor chunk))
    | .findHandle chunk =>
      match s.addressOf chunk with
      | .error f => (s, .fault f)
      | .ok url =>
        let (s, v) := s.valueOfHandle? (s.loader.findHandle chunk url)
        (s, .value v)
    | .address chunk => s.showsText (s.addressOf chunk)
    | .settings => s.shows (.settings s.settings)
    | .counters => s.shows (.counters s.loader.sink.tallied?)
    | .plant url tag loading onLoad onError =>
      let (s, onLoad) := s.slotOf onLoad
      let (s, onError) := s.slotOf onError
      ask fuel s (.plant { url, tag, loading, onLoad, onError })
    | .complete url type => ask fuel s (.complete url type)
    | .lookup url tag =>
      let (s, v) := s.valueOfHandle? (s.loader.registry.find? s.loader.handles url tag)
      (s, .value v)
    | .create url tag => ask fuel s (.create url tag)
    | .createPlain url tag => ask fuel s (.createPlain url tag)
    | .attach name => s.withHandle name fun h => ask fuel s (.attach h)
    | .remove name => s.withHandle name fun h => ask fuel s (.remove h)
    | .answers name url tag => s.withHandle name fun h =>
      s.shows (.flag ((s.loader.handles.get? h).any (·.answers url tag)))
    | .dispatch name type => s.withHandle name fun h => ask fuel s (.dispatch h type)
    | .assign name onLoad onError loading => s.withHandle name fun h =>
      let (s, onLoad) := s.slotOf? onLoad
      let (s, onError) := s.slotOf? onError
      ask fuel s (.assign h onLoad onError loading)
    | .saveSlots handle name => s.withHandle handle fun h => s.saveSlots h name
    | .callSaved name onLoad e =>
      match s.savedSlot? name onLoad with
      | some slot => askWith fuel s e (.notify slot)
      | none => (s, .fault (.missing name))
    | .advance none => (s, .fault .hugeSeconds)
    | .advance (some seconds) =>
      let target := s.loader.now + seconds
      let s := advance fuel s target
      ({ s with loader := s.loader.setClock target }, .value .nothing)
    | .respond url r => ask fuel s (.respond url r)

end

/-! ## Whole steps -/

mutual

/-- The number of steps in an observer's script, and one for the script. -/
def observerSize : Observer → Nat
  | .mk _ steps _ => stepsSize steps + 1

/-- The number of steps that a step brings with it, itself included. -/
def stepSize : Step → Nat
  | .load _ _ (some o) => observerSize o + 1
  | .plant _ _ _ onLoad onError => observerSize? onLoad + observerSize? onError + 1
  | .assign _ onLoad onError _ => observerSize?? onLoad + observerSize?? onError + 1
  | .gather chunks => chunks.length + 1
  | .ensure chunks => chunks.length + 1
  | _ => 1

/-- The number of steps that several steps bring with them. -/
def stepsSize : List Step → Nat
  | [] => 0
  | step :: rest => stepSize step + stepsSize rest

/-- The size of an observer that may be absent. -/
def observerSize? : Option Observer → Nat
  | none => 0
  | some o => observerSize o

/-- The size of an observer that may not be given, or given as absent. -/
def observerSize?? : Option (Option Observer) → Nat
  | none => 0
  | some o => observerSize? o

end

/-- A number larger than the number of calls that scripts of `size` steps can make. -/
def budget (size : Nat) : Nat :=
  Nat.pow (size + 8) 4

end SingleFlight.Scenario.Session
