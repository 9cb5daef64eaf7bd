/-
SingleFlight.Proofs.Turns — what a move does to loads over a registry.

A load can be used in some twenty ways, but few of them concern a load. Most
moves only touch things that loads do not look at; the others start a load, or
start some work on loads, or go on with work that a call had interrupted.

* `Move.OfLoads` — the moves.
* `Loader.Aside` — a change that loads do not notice.
* `Run.Origin` — the work that a move can start.
* `Run.Turn` — what a move can be. `turn_of_move` says that it is nothing else.
* `Run.step_load` — the one turn that begins a load.
-/
import SingleFlight.Loader.Run
import SingleFlight.Proofs.Closings
import SingleFlight.Proofs.Loading

namespace SingleFlight

/-- What can be done with loads over a registry, by their user and by the event loop. -/
def Move.OfLoads : Move → Prop
  | .invoke (.load _ _ (.call _)) => True
  | .invoke (.settle _ _) => True
  | .invoke .closeLoads => True
  | .invoke .closeRegistry => True
  | .invoke (.cancelClosing _) => True
  | .invoke (.clientClosed _ _) => True
  | .invoke (.plant _) => True
  | .invoke (.create _ _) => True
  | .invoke (.createPlain _ _) => True
  | .invoke (.remove _) => True
  | .invoke (.complete _ _) => True
  | .invoke (.dispatch _ _) => True
  | .invoke (.notify _ _) => True
  | .invoke (.assign _ _ _ _) => True
  | .invoke (.respond _ _) => True
  | .invoke (.prompt _ _) => True
  | .invoke _ => False
  | _ => True

/-! ## §1 Changes that loads do not notice -/

/--
Loads, their watchdogs and the observers of handles are as before. There may be more handles, but
none that has come into the registry.
-/
structure Loader.Aside (l l' : Loader) : Prop where
  attempts : l'.attempts = l.attempts
  active : l'.active.Perm l.active
  watchdogs : l'.watchdogs = l.watchdogs
  sink : l'.sink = l.sink
  tasks : l'.tasks = l.tasks
  cache : l'.cache = l.cache
  tidy : l.registry.Tidy l.handles → l'.registry.Tidy l'.handles
  entered : ∀ h ∈ l'.registry.handles, h ∈ l.registry.handles
  kept : ∀ h handle, l.handles.get? h = some handle →
    ∃ handle', l'.handles.get? h = some handle' ∧ handle'.onLoad = handle.onLoad ∧
      handle'.onError = handle.onError ∧ handle'.loading = handle.loading ∧
      handle'.url = handle.url
  added : ∀ h handle', l'.handles.get? h = some handle' → l.handles.get? h = none →
    handle'.onLoad = {} ∧ handle'.onError = {}

namespace Loader.Aside

variable {l l' l'' : Loader}

/-- Neither handles nor the registry have changed. -/
theorem beside (hat : l'.attempts = l.attempts) (hac : l'.active.Perm l.active)
    (hw : l'.watchdogs = l.watchdogs) (hs : l'.sink = l.sink) (ht : l'.tasks = l.tasks)
    (hc : l'.cache = l.cache) (hh : l'.handles = l.handles) (hr : l'.registry = l.registry) :
    Aside l l' where
  attempts := hat
  active := hac
  watchdogs := hw
  sink := hs
  tasks := ht
  cache := hc
  tidy := by rw [hh, hr]; exact id
  entered := by rw [hr]; exact fun _ => id
  kept := by
    intro h handle hget
    exact ⟨handle, by rw [hh]; exact hget, rfl, rfl, rfl, rfl⟩
  added := by
    intro h handle hget hnone
    rw [hh, hnone] at hget
    cases hget

theorem refl (l : Loader) : Aside l l :=
  beside rfl (.refl _) rfl rfl rfl rfl rfl rfl

theorem trans (h : Aside l l') (h' : Aside l' l'') : Aside l l'' where
  attempts := h'.attempts.trans h.attempts
  active := h'.active.trans h.active
  watchdogs := h'.watchdogs.trans h.watchdogs
  sink := h'.sink.trans h.sink
  tasks := h'.tasks.trans h.tasks
  cache := h'.cache.trans h.cache
  tidy := fun t => h'.tidy (h.tidy t)
  entered := fun k hk => h.entered k (h'.entered k hk)
  kept := by
    intro k handle hget
    obtain ⟨handle₁, hget₁, load₁, error₁, loading₁, url₁⟩ := h.kept k handle hget
    obtain ⟨handle₂, hget₂, load₂, error₂, loading₂, url₂⟩ := h'.kept k handle₁ hget₁
    exact ⟨handle₂, hget₂, load₂.trans load₁, error₂.trans error₁, loading₂.trans loading₁,
      url₂.trans url₁⟩
  added := by
    intro k handle hget hnone
    cases hmid : l'.handles.get? k with
    | none => exact h'.added k handle hget hmid
    | some handle₁ =>
      obtain ⟨handle₂, hget₂, h₁, h₂, -⟩ := h'.kept k handle₁ hmid
      rw [hget] at hget₂
      cases hget₂
      obtain ⟨h₃, h₄⟩ := h.added k handle₁ hmid hnone
      exact ⟨h₁.trans h₃, h₂.trans h₄⟩

/-- What a fetch brings is kept in its handle. -/
theorem record (l : Loader) (h : HandleId) (f : Download → Download) :
    Aside l (l.changeHandle h (·.record f)) where
  attempts := rfl
  active := .refl _
  watchdogs := rfl
  sink := rfl
  tasks := rfl
  cache := rfl
  tidy := fun t => t.update h fun _ => rfl
  entered := fun _ => id
  kept := by
    intro k handle hget
    by_cases hk : h = k
    · exact ⟨handle.record f, by simp [changeHandle, Table.get?_update, hk, hget],
        rfl, rfl, rfl, rfl⟩
    · exact ⟨handle, by simp [changeHandle, Table.get?_update, hk, hget], rfl, rfl, rfl, rfl⟩
  added := by
    intro k handle hget hnone
    simp [changeHandle, Table.get?_update, hnone] at hget

/-- A handle is made that nobody observes, and not registered. -/
theorem make (l : Loader) {handle : Handle} (hload : handle.onLoad = {})
    (herror : handle.onError = {}) : Aside l (l.newHandle handle).1 where
  attempts := rfl
  active := .refl _
  watchdogs := rfl
  sink := rfl
  tasks := rfl
  cache := rfl
  tidy := fun t => t.add handle
  entered := fun _ => id
  kept := by
    intro k handle' hget
    refine ⟨handle', ?_, rfl, rfl, rfl, rfl⟩
    show (l.handles.add handle).get? k = some handle'
    exact Table.get?_add_of_some hget handle
  added := by
    intro k handle' hget hnone
    have hget' : (l.handles.add handle).get? k = some handle' := hget
    rw [Table.get?_add] at hget'
    split at hget'
    · cases hget'
      exact ⟨hload, herror⟩
    · rw [hnone] at hget'
      cases hget'

/-- A handle that is there has the same address as before, and its signals the same source. -/
theorem signalFrom_eq (aside : Aside l l') {h : HandleId} {handle : Handle}
    (hh : l.handles.get? h = some handle) (type : String) :
    l'.signalFrom h type = l.signalFrom h type := by
  obtain ⟨handle', hh', -, -, -, hurl⟩ := aside.kept h handle hh
  simp [signalFrom, sourceOf, hh, hh', hurl]

theorem remove (l : Loader) (h : HandleId) : Aside l (l.remove h) := by
  unfold Loader.remove
  split
  · exact refl l
  · exact
      { refl l with
        tidy := fun t => t.remove h _
        entered := fun _ => Registry.mem_of_mem_remove }

/-- Loads notice neither fetches that end nor shutdowns that go on. -/
theorem unloads (h : Unloads l l') : Aside l l' := by
  obtain ⟨fetches, closings, registry, jobs, rfl, hr, -⟩ := h
  rcases hr with rfl | rfl
  · exact beside rfl (.refl _) rfl rfl rfl rfl rfl rfl
  · exact
      { refl l with
        tidy := fun t => t.shut
        entered := by simp }

/-- A change that loads do not notice keeps what holds of them. -/
theorem loading (h : Aside l l') (hl : Loading l none) : Loading l' none where
  orderly := by
    have hr := hl.orderly.reorder h.active
    exact hr.congr h.attempts rfl h.watchdogs
  steady := by rw [h.sink]; exact hl.steady
  called := by rw [h.attempts]; exact hl.called
  placed := by
    intro a x ha
    rw [h.attempts] at ha
    obtain ⟨handle, hget⟩ := hl.placed a x ha
    obtain ⟨handle', hget', -⟩ := h.kept x.handle handle hget
    exact ⟨handle', hget'⟩
  tidy := h.tidy hl.tidy
  tasks := h.tasks.trans hl.tasks
  unused := by rw [h.cache]; exact hl.unused

end Loader.Aside

/-! ## §2 Signals of handles -/

/-- The type of the signal that a client's answer causes. -/
def Reply.signal : Reply → String
  | .response status _ _ => if Loader.isSuccess status then "load" else "error"
  | _ => "error"

namespace Run

/-- The move delivers a signal of a handle. -/
inductive Delivers (r : Run) (h : HandleId) (type : String) : Move → Prop
  | dispatch : Delivers r h type (.invoke (.dispatch h type))
  | complete {url : String}
      (hf : r.loader.registry.find? r.loader.handles url none = some h) :
      Delivers r h type (.invoke (.complete url type))
  /-- The client's answer reaches the handle's fetch. -/
  | answered {f : FetchId} {rest : List Job} {reply : Reply} (hi : r.idle = true)
      (hq : r.loader.ready = .answer f :: rest)
      (hf : r.loader.fetches.get? f = some { handle := h, stage := .answered reply })
      (ht : reply.signal = type) : Delivers r h type .runJob
  /-- The client is asked for the handle, and answers at once. -/
  | prompted {f : FetchId} {rest : List Job} {reply : Reply} (hi : r.idle = true)
      (hq : r.loader.ready = .ask f :: rest)
      (hf : r.loader.fetches.get? f = some { handle := h })
      (hp : r.loader.promptFor? h = some reply) (ht : reply.signal = type) :
      Delivers r h type .runJob

section Moves

variable {r : Run} {m : Move} {h : HandleId} {type : String} {handle : Handle}

theorem finishFetch_eq {l : Loader} (hh : l.handles.get? h = some handle) (type : String) :
    l.finishFetch h type = (l, [.signal (handle.slotFor type) (l.signalFrom h type)]) := by
  simp [Loader.finishFetch, hh]

/-- A client's answer is kept in the handle, and then the handle signals. -/
theorem takeReply_eq {l : Loader} (hh : l.handles.get? h = some handle) (url : String)
    (reply : Reply) :
    ∃ l' handle', Loader.Aside l l' ∧ l'.handles.get? h = some handle' ∧
      l.takeReply h url reply =
        (l', [.signal (handle'.slotFor reply.signal) (l'.signalFrom h reply.signal)]) := by
  have recorded : ∀ f : Download → Download,
      (l.changeHandle h (·.record f)).handles.get? h = some (handle.record f) := by
    intro f
    simp [Loader.changeHandle, Table.get?_update, hh]
  have noted : ∀ f source level text, Loader.Aside l
      ((l.changeHandle h (·.record f)).note source level text) := fun f _ _ _ =>
    (Loader.Aside.record l h f).trans (.beside rfl (.refl _) rfl rfl rfl rfl rfl rfl)
  have failed : ∀ status message, ∃ l' handle', Loader.Aside l l' ∧
      l'.handles.get? h = some handle' ∧ l.failFetch h url status message =
        (l', [.signal (handle'.slotFor "error") (l'.signalFrom h "error")]) := by
    intro status message
    refine ⟨_, handle.record fun d => { d with status, error := some message },
      ?_, ?_, finishFetch_eq ?_ "error"⟩
    · exact noted _ _ _ _
    · exact recorded _
    · exact recorded _
  cases reply with
  | response status content complaint =>
    cases hs : Loader.isSuccess status with
    | true =>
      simp only [Loader.takeReply, Reply.signal, hs, if_true]
      exact ⟨_, _, .record l h _, recorded _, finishFetch_eq (recorded _) "load"⟩
    | false =>
      simp only [Loader.takeReply, Reply.signal, hs, Bool.false_eq_true, if_false]
      exact failed _ _
  | failed message => exact failed none message
  | unsendable kind message =>
    simp only [Loader.takeReply, Reply.signal]
    refine ⟨_, handle.record fun d => { d with error := some (if message = "" then kind else message) },
      ?_, ?_, finishFetch_eq ?_ "error"⟩
    · exact noted _ _ _ _
    · exact recorded _
    · exact recorded _

/-- A change that loads do not notice leaves the slots of handles as they are. -/
theorem slotFor_of_aside {l l' : Loader} (aside : Loader.Aside l l')
    (hh : l.handles.get? h = some handle) {handle' : Handle}
    (hh' : l'.handles.get? h = some handle') (type : String) :
    handle'.slotFor type = handle.slotFor type := by
  obtain ⟨handle₁, hh₁, hload, herror, -⟩ := aside.kept h handle hh
  rw [hh'] at hh₁
  cases hh₁
  unfold Handle.slotFor
  rw [hload, herror]

/-- A fetch takes the client's answer, and its handle signals. -/
theorem takeAnswer_eq {l : Loader} {f : FetchId} {reply : Reply}
    (hf : l.fetches.get? f = some { handle := h, stage := .answered reply })
    (hh : l.handles.get? h = some handle) :
    ∃ l', Loader.Aside l l' ∧ l.takeAnswer f =
      (l', [.signal (handle.slotFor reply.signal) (l.signalFrom h reply.signal)]) := by
  have ended : Loader.Aside l (l.endFetch f) := .unloads (.endFetch l f)
  obtain ⟨l', handle', aside, hh', htake⟩ :=
    takeReply_eq (l := l.endFetch f) hh handle.url reply
  refine ⟨l', ended.trans aside, ?_⟩
  rw [← slotFor_of_aside (ended.trans aside) hh hh', ← (ended.trans aside).signalFrom_eq hh]
  simp only [Loader.takeAnswer, hf, hh, htake]

/-- A signal of a handle goes to the observers in one of its slots. -/
theorem step_of_delivers (hd : Delivers r h type m) (hh : r.loader.handles.get? h = some handle) :
    ∃ answer l, Loader.Aside r.loader l ∧
      r.step m =
        r.after answer (l.drive [.signal (handle.slotFor type) (r.loader.signalFrom h type)]) := by
  cases hd with
  | dispatch =>
    refine ⟨some .nothing, r.loader, .refl _, ?_⟩
    simp [step, Loader.invoke, Loader.dispatch, hh]
  | complete hf =>
    refine ⟨some (.handle h), r.loader, .refl _, ?_⟩
    simp [step, Loader.invoke, Loader.dispatch, hf, hh]
  | @answered f rest reply hi hq hf ht =>
    subst ht
    have popped : Loader.Aside r.loader { r.loader with ready := rest } :=
      .beside rfl (.refl _) rfl rfl rfl rfl rfl rfl
    obtain ⟨l', aside, htake⟩ := takeAnswer_eq (l := { r.loader with ready := rest }) hf hh
    refine ⟨none, l', popped.trans aside, ?_⟩
    simp only [step, hi, Loader.nextJob?, hq, Loader.runJob, htake]
    rfl
  | @prompted f rest reply hi hq hf hp ht =>
    subst ht
    have asked : Loader.Aside r.loader
        ({ r.loader with ready := rest }.setStage f (.answered reply)) :=
      .beside rfl (.refl _) rfl rfl rfl rfl rfl rfl
    have hf' : ({ r.loader with ready := rest }.setStage f (.answered reply)).fetches.get? f =
        some { handle := h, stage := .answered reply } := by
      simp [Loader.setStage, Table.get?_update, hf]
    obtain ⟨l', aside, htake⟩ := takeAnswer_eq hf' hh
    refine ⟨none, l', asked.trans aside, ?_⟩
    have hp' : { r.loader with ready := rest }.promptFor? h = some reply := hp
    simp only [step, hi, Loader.nextJob?, hq, Loader.runJob, Loader.ask, hf, hp', htake]
    rfl

end Moves

/-! ## §3 Moves -/

/-- The work that a move starts. -/
inductive Origin (r : Run) : Move → List Frame → Prop
  | signalled {m : Move} {h : HandleId} {type : String} {handle : Handle} {e : LoadEvent}
      (hd : Delivers r h type m) (hh : r.loader.handles.get? h = some handle)
      (he : e.type = type) : Origin r m [.signal (handle.slotFor type) e]
  | settled {chunk : ChunkId} {e : LoadEvent} {a : AttemptId}
      (ha : r.loader.activeFor? chunk = some a) :
      Origin r (.invoke (.settle chunk e)) [.signal { waiting := [a] } e]
  | fired {target : Float} {w : Watchdog} (hi : r.idle = true)
      (hw : r.loader.nextDue? target = some w) :
      Origin r (.fire target)
        [.signal { waiting := [w.attempt] } (r.loader.endSignal w.attempt "timeout")]
  | closed : Origin r (.invoke .closeLoads) [.abort r.loader.active]
  | notified (s : Slot) (e : LoadEvent) : Origin r (.invoke (.notify s e)) [.signal s e]

theorem Origin.ofLoads {r : Run} {m : Move} {work : List Frame} (origin : Origin r m work) :
    ∀ f ∈ work, f.OfLoads := by
  intro f hf
  cases origin <;>
  · cases List.mem_singleton.mp hf
    simp [Frame.OfLoads, Frame.Within]

/-- What a move can be, for loads over a registry. -/
inductive Turn (r : Run) : Move → Prop
  | load (chunk : ChunkId) (url : String) (k : CallbackId) :
      Turn r (.invoke (.load chunk url (.call k)))
  | planted (handle : Handle) : Turn r (.invoke (.plant handle))
  | assigned (h : HandleId) (onLoad onError : Option Slot) (loading : Option Bool) :
      Turn r (.invoke (.assign h onLoad onError loading))
  /-- Nothing that a load would notice. -/
  | aside {m : Move} {l : Loader} {answer : Option Answer}
      (hstep : r.step m = r.after answer (l, .finished)) (h : Loader.Aside r.loader l) : Turn r m
  | worked {m : Move} {l : Loader} {answer : Option Answer} {work : List Frame}
      (hstep : r.step m = r.after answer (l.drive work)) (origin : Origin r m work)
      (h : Loader.Aside r.loader l) : Turn r m
  | resumed {s : Suspension} {outer : List Suspension} (hs : r.suspended = s :: outer) :
      Turn r .returns
  | raised (f : Fault) {s : Suspension} {outer : List Suspension}
      (hs : r.suspended = s :: outer) : Turn r (.raises f)

section Turns

variable {r : Run} {m : Move}

theorem after_none (r : Run) (l : Loader) :
    r.after none (l, .finished) = { r with loader := l } := by
  simp [after]

theorem after_loader (r : Run) (answer : Option Answer) (p : Loader × Progress) :
    (r.after answer p).loader = p.1 := by
  obtain ⟨l, progress⟩ := p
  cases progress <;> rfl

/-- What the next job does to the loader. -/
theorem loader_step_runJob (hidle : r.idle = true) {j : Job} {rest : List Job}
    (hready : r.loader.ready = j :: rest) :
    (r.step .runJob).loader = (({ r.loader with ready := rest }.runJob j).1.drive
      ({ r.loader with ready := rest }.runJob j).2).1 := by
  simp only [step, hidle, Loader.nextJob?, hready]
  exact after_loader ..

/-- The innermost call returns: the work that it had interrupted goes on. -/
theorem step_returns {s : Suspension} {outer : List Suspension} (hs : r.suspended = s :: outer) :
    r.step .returns =
      { r with suspended := outer }.after s.answer (r.loader.drive s.rest) := by
  simp [step, hs]

/-- The innermost call raises an error: work on loads that it had interrupted is dropped. -/
theorem step_raises {s : Suspension} {outer : List Suspension} (hs : r.suspended = s :: outer)
    (hf : ∀ f ∈ s.rest, f.OfLoads) (f : Fault) :
    r.step (.raises f) = { r with suspended := outer } := by
  simp only [step, hs, Loader.Loading.unwind_eq f hf]
  rfl

theorem Turn.still (hstep : r.step m = r) : Turn r m := by
  have hafter : r.step m = r.after none (r.loader, .finished) := by rw [hstep, after_none]
  exact .aside hafter (.refl r.loader)

/-- A signal for a handle that does not exist is lost. -/
theorem turn_of_delivers {h : HandleId} {type : String} (hd : Delivers r h type m)
    (hnone : r.loader.handles.get? h = none → Turn r m) : Turn r m := by
  cases hh : r.loader.handles.get? h with
  | none => exact hnone hh
  | some handle =>
    obtain ⟨answer, l, aside, hstep⟩ := step_of_delivers hd hh
    exact .worked hstep (.signalled hd hh rfl) aside

/-- A job on the queue: without tasks and a cache, it is about a fetch. -/
theorem turn_of_runJob (ht : r.loader.tasks = {}) (hc : r.loader.cache.entries = []) :
    Turn r .runJob := by
  cases hi : r.idle with
  | false => exact .still (by simp [step, hi])
  | true =>
    cases hq : r.loader.ready with
    | nil => exact .still (by simp [step, hi, Loader.nextJob?, hq])
    | cons job rest =>
      have popped : Loader.Aside r.loader { r.loader with ready := rest } :=
        .beside rfl (.refl _) rfl rfl rfl rfl rfl rfl
      have hstep : ∀ l, { r.loader with ready := rest }.runJob job = (l, []) →
          r.step .runJob = r.after none (l, .finished) := by
        intro l hjob
        simp only [step, hi, Loader.nextJob?, hq, hjob, Loader.drive]
      cases job with
      | report chunk e =>
        refine .aside (hstep ({ r.loader with ready := rest }.noteIdle chunk e) ?_) ?_
        · simp [Loader.runJob, Loader.report, Cache.ticketOf?, Cache.find?, hc]
        · exact .beside rfl (.refl _) rfl rfl rfl rfl rfl rfl
      | startTask t =>
        refine .aside (hstep _ ?_) popped
        simp [Loader.runJob, Loader.startTask, ht, Table.get?]
      | childSettled t p =>
        refine .aside (hstep _ ?_) popped
        simp [Loader.runJob, Loader.childSettled, ht, Table.get?]
      | wakeTask t =>
        refine .aside (hstep _ ?_) popped
        simp [Loader.runJob, Loader.wakeTask, ht, Table.get?]
      | forget f => exact .aside (hstep _ rfl) popped
      | fetchEnded c f =>
        exact .aside (hstep _ rfl) (popped.trans (.unloads (.fetchEnded _ c f)))
      | wakeClosing c => exact .aside (hstep _ rfl) (popped.trans (.unloads (.wakeClosing _ c)))
      | ask f =>
        -- The fetch leaves it at a change of its stage, if the client does not answer at once.
        have unloaded : ∀ {l}, Loader.Unloads { r.loader with ready := rest } l →
            { r.loader with ready := rest }.ask f = (l, []) → Turn r .runJob :=
          fun h hask => .aside (hstep _ hask) (popped.trans (.unloads h))
        cases hf : r.loader.fetches.get? f with
        | none => exact unloaded (.refl _) (by simp [Loader.ask, hf])
        | some fetch =>
          obtain ⟨h, stage⟩ := fetch
          cases stage with
          | created =>
            cases hp : r.loader.promptFor? h with
            | none =>
              have hp' : { r.loader with ready := rest }.promptFor? h = none := hp
              exact unloaded (.setStage _ f .asked) (by simp [Loader.ask, hf, hp'])
            | some reply =>
              refine turn_of_delivers (.prompted hi hq hf hp rfl) fun hnone => ?_
              simp [Loader.promptFor?, hnone] at hp
          | stopping => exact unloaded (.endFetch _ f) (by simp [Loader.ask, hf])
          | _ => exact unloaded (.refl _) (by simp [Loader.ask, hf])
      | answer f =>
        have dropped : { r.loader with ready := rest }.takeAnswer f =
            ({ r.loader with ready := rest }, []) → Turn r .runJob :=
          fun htake => .aside (hstep _ htake) popped
        cases hf : r.loader.fetches.get? f with
        | none => exact dropped (by simp [Loader.takeAnswer, hf])
        | some fetch =>
          obtain ⟨h, stage⟩ := fetch
          cases stage with
          | answered reply =>
            refine turn_of_delivers (.answered hi hq hf rfl) fun hnone => ?_
            exact dropped (by simp [Loader.takeAnswer, hf, hnone])
          | stopping =>
            refine .aside (hstep ({ r.loader with ready := rest }.endFetch f) ?_)
              (popped.trans (.unloads (.endFetch _ f)))
            simp [Loader.runJob, Loader.takeAnswer, hf]
          | _ => exact dropped (by simp [Loader.takeAnswer, hf])

/-- A load that is ended from outside is told as if its handle had signalled to it alone. -/
theorem step_settle {chunk : ChunkId} {a : AttemptId}
    (ha : r.loader.activeFor? chunk = some a) (e : LoadEvent) :
    r.step (.invoke (.settle chunk e)) =
      r.after (some (.flag true)) (r.loader.drive [.signal { waiting := [a] } e]) := by
  simp [step, Loader.invoke, ha]

theorem turn_of_invoke {op : Operation} (hop : Move.OfLoads (.invoke op)) :
    Turn r (.invoke op) := by
  cases op with
  | load chunk url done =>
    cases done with
    | redeem t => exact hop.elim
    | call k => exact .load chunk url k
  | settle chunk e =>
    cases ha : r.loader.activeFor? chunk with
    | none =>
      have hstep : r.step (.invoke (.settle chunk e)) =
          r.after (some (.flag false)) (r.loader, .finished) := by
        simp [step, Loader.invoke, ha, Loader.atOnce, Loader.drive]
      exact .aside hstep (.refl _)
    | some a =>
      exact .worked (step_settle ha e) (.settled ha) (.refl _)
  | closeLoads =>
    have hstep : r.step (.invoke .closeLoads) =
        r.after (some .nothing) (r.loader.drive [.abort r.loader.active]) := rfl
    exact .worked hstep .closed (.refl _)
  | closeRegistry =>
    have hstep : r.step (.invoke .closeRegistry) =
        r.after (some (.closing r.loader.closings.size))
          (r.loader.newClosing.1.closeRegistry r.loader.closings.size, .finished) := rfl
    exact .aside hstep (.unloads ((Loader.Unloads.newClosing _).trans (.closeRegistry _ _)))
  | cancelClosing c =>
    have hstep : r.step (.invoke (.cancelClosing c)) =
        r.after (some (.flag (r.loader.cancelClosing c).2))
          ((r.loader.cancelClosing c).1, .finished) := rfl
    exact .aside hstep (.unloads (.cancelClosing _ c))
  | clientClosed c problem =>
    have hstep : r.step (.invoke (.clientClosed c problem)) =
        r.after (some (.flag (r.loader.clientClosed c problem).2))
          ((r.loader.clientClosed c problem).1, .finished) := rfl
    exact .aside hstep (.unloads (.clientClosed _ c problem))
  | plant handle => exact .planted handle
  | create url tag =>
    have hstep : r.step (.invoke (.create url tag)) =
        r.after (some (.handle r.loader.handles.size))
          ((r.loader.newHandle (r.loader.registry.make url tag)).1, .finished) := rfl
    exact .aside hstep (.make _ rfl rfl)
  | createPlain url tag =>
    have hstep : r.step (.invoke (.createPlain url tag)) =
        r.after (some (.handle r.loader.handles.size))
          ((r.loader.newHandle { url, tag }).1, .finished) := rfl
    exact .aside hstep (.make _ rfl rfl)
  | remove h =>
    have hstep : r.step (.invoke (.remove h)) =
        r.after (some .nothing) (r.loader.remove h, .finished) := rfl
    exact .aside hstep (.remove _ h)
  | complete url type =>
    cases hf : r.loader.registry.find? r.loader.handles url none with
    | none => exact .still (by simp [step, Loader.invoke, hf])
    | some h =>
      refine turn_of_delivers (.complete hf) fun hnone => ?_
      have hstep : r.step (.invoke (.complete url type)) =
          r.after (some (.handle h)) (r.loader, .finished) := by
        simp [step, Loader.invoke, hf, Loader.dispatch, hnone, Loader.drive]
      exact .aside hstep (.refl _)
  | dispatch h type =>
    refine turn_of_delivers .dispatch fun hnone => ?_
    have hstep : r.step (.invoke (.dispatch h type)) =
        r.after (some .nothing) (r.loader, .finished) := by
      simp [step, Loader.invoke, Loader.dispatch, hnone, Loader.drive]
    exact .aside hstep (.refl _)
  | notify s e =>
    have hstep : r.step (.invoke (.notify s e)) =
        r.after (some .nothing) (r.loader.drive [.signal s e]) := rfl
    exact .worked hstep (.notified s e) (.refl _)
  | assign h onLoad onError loading => exact .assigned h onLoad onError loading
  | respond url reply =>
    have hstep : r.step (.invoke (.respond url reply)) =
        r.after (some (.flag (r.loader.respond url reply).2))
          ((r.loader.respond url reply).1, .finished) := rfl
    exact .aside hstep (.unloads (.respond _ url reply))
  | prompt url reply =>
    have hstep : r.step (.invoke (.prompt url reply)) =
        r.after (some .nothing) (r.loader.prompt url reply, .finished) := rfl
    refine .aside hstep ?_
    cases reply <;> exact .beside rfl (.refl _) rfl rfl rfl rfl rfl rfl
  | _ => exact hop.elim

/-- A watchdog that fires belongs to an active load. -/
theorem active_of_due (hl : r.loader.Loading none) {target : Float} {w : Watchdog}
    (hw : r.loader.nextDue? target = some w) : w.attempt ∈ r.loader.active :=
  hl.orderly.watched.mem_iff.mp (List.mem_map_of_mem (Loader.nextDue?_mem hw).1)

/-- The watchdog that fires is disarmed first, which its load does not notice. -/
theorem step_fire (hl : r.loader.Loading none) {target : Float} {w : Watchdog}
    (hi : r.idle = true) (hw : r.loader.nextDue? target = some w) :
    r.step (.fire target) =
      r.after none ({ r.loader with now := w.due }.drive
        [.signal { waiting := [w.attempt] } (r.loader.endSignal w.attempt "timeout")]) := by
  obtain ⟨-, x, hx, hopen⟩ := (hl.orderly.active_iff _).mp (active_of_due hl hw)
  have hsame := Loader.signal_disarm (l := { r.loader with now := w.due }) hx hopen
    (r.loader.endSignal w.attempt "timeout") none []
  simp only [step, hi, Loader.fireNext?, hw, Option.map_some, Loader.drive, Loader.perform,
    hsame]

theorem turn_of_fire (hl : r.loader.Loading none) (target : Float) : Turn r (.fire target) := by
  cases hi : r.idle with
  | false => exact .still (by simp [step, hi])
  | true =>
    cases hd : r.loader.nextDue? target with
    | none => exact .still (by simp [step, hi, Loader.fireNext?, hd])
    | some w =>
      exact .worked (step_fire hl hi hd) (.fired hi hd)
        (.beside rfl (.refl _) rfl rfl rfl rfl rfl rfl)

/-- Every move but that of a watchdog is one of these, whatever the sink refuses. -/
theorem turn_of_unfired (ht : r.loader.tasks = {}) (hc : r.loader.cache.entries = [])
    (hm : m.OfLoads) (hf : ∀ target, m ≠ .fire target) : Turn r m := by
  cases m with
  | invoke op => exact turn_of_invoke hm
  | returns =>
    cases hs : r.suspended with
    | nil => exact .still (by simp [step, hs])
    | cons s outer => exact .resumed hs
  | raises f =>
    cases hs : r.suspended with
    | nil => exact .still (by simp [step, hs])
    | cons s outer => exact .raised f hs
  | runJob => exact turn_of_runJob ht hc
  | fire target => exact absurd rfl (hf target)
  | setClock now =>
    cases hi : r.idle with
    | false => exact .still (by simp [step, hi])
    | true =>
      have hstep : r.step (.setClock now) = r.after none (r.loader.setClock now, .finished) := by
        simp [step, hi, after]
      exact .aside hstep (.beside rfl (.refl _) rfl rfl rfl rfl rfl rfl)
  | reorder active =>
    cases hp : active.isPerm r.loader.active with
    | false => exact .still (by simp [step, hp])
    | true =>
      have hstep : r.step (.reorder active) =
          r.after none ({ r.loader with active }, .finished) := by
        simp [step, hp, after]
      exact .aside hstep (.beside rfl (List.isPerm_iff.mp hp) rfl rfl rfl rfl rfl rfl)
  | replan resolve hasAsset =>
    have hstep : r.step (.replan resolve hasAsset) =
        r.after none (r.loader.replan resolve hasAsset, .finished) := by
      simp [step, after]
    exact .aside hstep (.beside rfl (.refl _) rfl rfl rfl rfl rfl rfl)

/-- Every move is one of these. -/
theorem turn_of_move (hl : r.loader.Loading none) (hm : m.OfLoads) : Turn r m := by
  cases m with
  | fire target => exact turn_of_fire hl target
  | _ => exact turn_of_unfired hl.tasks hl.unused hm nofun

/-! ### How a load begins -/

/-- A load call: the load waits for its handle, or is told at once that its handle is complete. -/
theorem step_load (hl : r.loader.Loading none) (chunk : ChunkId) (url : String)
    (k : CallbackId) :
    (∃ (l : Loader) (h : HandleId), r.step (.invoke (.load chunk url (.call k))) =
        r.after (some (.handle h)) (l, .finished) ∧ l.Loading none ∧
      l.attempts = r.loader.attempts.add { chunk, handle := h, done := .call k } ∧
      r.loader.Joined h l) ∨
    ∃ (l : Loader) (h : HandleId) (e : LoadEvent) (l' : Loader),
      r.step (.invoke (.load chunk url (.call k))) =
        r.after (some (.handle h))
          (l', .calling (.tell r.loader.attempts.size k e) [.signal {} e]) ∧
      l.Loading (some r.loader.attempts.size) ∧
      l.attempts = r.loader.attempts.add { chunk, handle := h, done := .call k } ∧
      l.handles = r.loader.handles ∧
      l.attempts.get? r.loader.attempts.size =
        some { chunk, handle := h, done := .call k } ∧
      l.conclude r.loader.attempts.size { chunk, handle := h, done := .call k } e =
        (l', none) ∧
      l.Concluded r.loader.attempts.size { chunk, handle := h, done := .call k } l' := by
  rcases hl.load chunk url k with
    ⟨l, h, hload, loading, hat, joined⟩ | ⟨l, h, hload, loading, hat, hh⟩
  · refine .inl ⟨l, h, ?_, loading, hat, joined⟩
    simp [step, Loader.invoke, hload, Loader.atOnce, Loader.drive]
  · have hnew : l.attempts.get? r.loader.attempts.size =
        some { chunk, handle := h, done := .call k } := by
      rw [hat, Table.get?_add_size]
    have hl' : ∀ b, some r.loader.attempts.size = some b → b = r.loader.attempts.size :=
      fun b hb => (Option.some.inj hb).symm
    obtain ⟨l', hcon, hs⟩ := loading.signal_open hl' hnew rfl rfl (l.signalFrom h "load") none []
    refine .inr ⟨l, h, l.signalFrom h "load", l', ?_, loading, hat, hh, hnew, hcon,
      loading.concluded hl' hnew hcon⟩
    simp [step, Loader.invoke, hload, Loader.drive, Loader.perform, hs]

end Turns

end Run

end SingleFlight
