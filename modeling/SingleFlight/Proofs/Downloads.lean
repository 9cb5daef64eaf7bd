/-
SingleFlight.Proofs.Downloads — fetches end as the client answers.

Over a registry that fetches, a load does not wait in vain. In every use of a
whole loader whose handles and slots are its own affair, the handle of each
active load has a fetch that goes on; and when the client's answer for it arrives,
the load ends in that very job, well or badly, as the answer says.

* `Loader.Unsettled` — attempts in flight have pending promises, while nobody cancels any.
* `Run.Proper` — the moves considered; `Run.Taken` — handles that they take out.
* `Run.awaiting_steps` — what a history of such moves keeps.
* `Run.fetches_end_as_answered` — the result.
-/
import SingleFlight.Proofs.Cancelling
import SingleFlight.Proofs.Fetches

namespace SingleFlight

namespace Loader

/-! ## §1 Promises of attempts -/

/-- Whoever asked for a chunk in flight still waits. -/
def Unsettled (l : Loader) : Prop :=
  ∀ k t, l.cache.ticketOf? k = some t → l.promises.isPending t.promise = true

variable {asked : ChunkId → Prop} {l l' : Loader} {m : Move}

namespace Unsettled

/-- No attempt comes in flight, and promises stay as they are. -/
theorem keep (i : l.Unsettled)
    (hc : ∀ k t, l'.cache.ticketOf? k = some t → l.cache.ticketOf? k = some t)
    (hp : l'.promises = l.promises) : l'.Unsettled := by
  intro k t ht
  rw [hp]
  exact i k t (hc k t ht)

/-- An attempt ends, and its promise is settled; the others have other promises. -/
theorem settle (i : l.Unsettled) (w : Whole asked l) {t : Ticket} {o : Outcome}
    (h : l.cache.honours t = true)
    (hc : ∀ k, l'.cache.ticketOf? k = if k = t.chunk then none else l.cache.ticketOf? k)
    (hp : l'.promises = l.promises.settle t.promise o) : l'.Unsettled := by
  intro k t' ht'
  rw [hc] at ht'
  split at ht'
  · cases ht'
  · rename_i hk
    obtain ⟨entry, hentry, hprom⟩ := Cache.honours_iff.mp h
    have ticket : l.cache.ticketOf? t.chunk = some ⟨t.chunk, entry.promise, entry.attempt⟩ :=
      Cache.ticketOf?_eq_some.mpr ⟨entry, hentry, rfl⟩
    have hne : t'.promise ≠ t.promise := fun heq =>
      hk (w.distinct k t.chunk t' _ ht' ticket (heq.trans hprom.symm))
    rw [hp, Promises.isPending_settle, i k t' ht', decide_eq_true hne]
    rfl

end Unsettled

theorem Change.unsettled (h : Change asked l l') (w : Whole asked l) (i : l.Unsettled) :
    l'.Unsettled := by
  have older : ∀ k t, l.cache.ticketOf? k = some t →
      l.promises.create.1.isPending t.promise = true := by
    intro k t ht
    rw [Promises.isPending_create, i k t ht, Bool.or_true]
  cases h with
  | skipped chunk ho =>
    refine i.keep (fun k t ht => ?_) rfl
    rw [← Cache.ticketOf?_mark _ chunk k (e := .skipped) nofun]
    exact ht
  | @joined chunk p h ho =>
    refine i.keep (fun k t ht => ?_) rfl
    rw [← Cache.ticketOf?_join _ chunk k h]
    exact ht
  | kept h he ho =>
    obtain ⟨ready, hs⟩ := l.newPromise.1.settlePromise_eq l.newPromise.2 .ok
    rw [hs]
    intro k t ht
    change l.cache.ticketOf? k = some t at ht
    have hne : t.promise ≠ l.promises.create.2 := Nat.ne_of_lt (w.made k t ht)
    change (l.promises.create.1.settle l.promises.create.2 .ok).isPending t.promise = true
    rw [Promises.isPending_settle, older k t ht, decide_eq_true hne]
    rfl
  | @begun chunk h ho ha =>
    intro k t ht
    change (l.cache.begin chunk l.promises.create.2).1.ticketOf? k = some t at ht
    rw [Cache.ticketOf?_begin] at ht
    split at ht
    · cases ht
      exact Promises.isPending_created _
    · exact older k t ht
  | @abandoned t h =>
    unfold abandon
    split
    · refine i.keep (fun k t' ht' => ?_) rfl
      rw [Cache.ticketOf?_drop] at ht'
      split at ht'
      · cases ht'
      · exact ht'
    · exact i
  | @concluded a x ha hx e =>
    rw [detach_eq]
    exact i
  | @settled t h e =>
    obtain ⟨ready, log, hs⟩ := l.settleEntry_eq t e
    rw [hs]
    exact i.settle w h (fun k => Cache.ticketOf?_ended ..) rfl
  | @aborted t h =>
    obtain ⟨o, ready, hs⟩ := l.abortEntry_eq t
    rw [hs]
    exact i.settle w h (fun k => Cache.ticketOf?_drop ..) rfl
  | _ => exact i

theorem Act.unsettled (h : Act asked l m l') (hm : ¬m.IsCancel) (w : Whole asked l)
    (i : l.Unsettled) : l'.Unsettled := by
  cases h with
  | work h => exact h.unsettled w i
  | @marked chunk e he =>
    refine i.keep (fun k t ht => ?_) rfl
    rw [← Cache.ticketOf?_mark _ chunk k he]
    exact ht
  | attached h =>
    obtain ⟨_, _, _, h⟩ := l.outer_attach h
    rw [h]
    exact i
  | removed h =>
    obtain ⟨_, _, _, h⟩ := l.outer_remove h
    rw [h]
    exact i
  | cancelled p => exact absurd trivial hm
  | taskCancelled t => exact absurd trivial hm
  | @told t p rest h =>
    obtain ⟨_, _, h⟩ := childSettled_eq { l with ready := rest } t p
    rw [h]
    exact i
  | @woken t rest h =>
    obtain ⟨_, h⟩ := wakeTask_eq { l with ready := rest } t
    rw [h]
    exact i
  | @awaited t chunks ps h hp =>
    obtain ⟨_, _, h⟩ := l.await_eq t ps
    rw [h]
    exact i
  | _ => exact i

/-! ## §2 Answers -/

/--
The client has answered for the handle of a load. The answer is kept in the handle, which observes
nothing any more; the fetch is over, and so is the load with its watchdog. The attempts at other
chunks and their promises are as they were.
-/
structure Answered (l : Loader) (f : FetchId) (a : AttemptId) (x : Attempt) (t : Ticket)
    (reply : Reply) (l' : Loader) : Prop where
  handles : l'.handles = l.handles.update x.handle fun y => (y.record reply.record).release
  fetches : l'.fetches = l.fetches.update f ({ · with stage := .over })
  attempts : l'.attempts = l.attempts.update a ({ · with settled := true })
  active : l'.active = l.active.filter (· ≠ a)
  watchdogs : l'.watchdogs = l.watchdogs.filter (·.attempt ≠ a)
  others : ∀ k, k ≠ x.chunk → l'.cache.find? k = l.cache.find? k
  promises : ∀ p, p ≠ t.promise → l'.promises.outcome? p = l.promises.outcome? p

/-- The answer was a response that reports success. -/
structure Arrived (l : Loader) (x : Attempt) (t : Ticket) (status : Int) (content : String)
    (l' : Loader) : Prop where
  loaded : l'.cache.find? x.chunk = some .loaded
  resolved : l'.promises.outcome? t.promise = some .ok
  registry : l'.registry = l.registry
  kept : ∃ y d, l'.handles.get? x.handle = some y ∧ y.download = some d ∧
    d.status = some status ∧ d.content = some content

/-- The answer was another response, or none came. -/
structure Missed (l : Loader) (x : Attempt) (t : Ticket) (url : String) (l' : Loader) : Prop where
  unknown : l'.cache.find? x.chunk = none
  failed : l'.promises.outcome? t.promise = some (.failed
    { chunk := x.chunk, cause := .failed "error", request := some url,
      assetKind := l.plan.policy.assetKind })
  unregistered : x.handle ∉ l'.registry.handles
  registered : ∀ h, h ≠ x.handle → (h ∈ l'.registry.handles ↔ h ∈ l.registry.handles)
  /-- The next request makes a handle of its own, with a fetch of its own. -/
  unfound : l'.findHandle x.chunk url = none

variable {l₁ : Loader} {f : FetchId} {a : AttemptId} {x : Attempt} {h : HandleId} {t : Ticket}
  {reply : Reply}

/-! That a fetch had its answer for a moment makes no difference. -/

theorem Answered.of_setStage {stage : FetchStage}
    (n : (l.setStage f stage).Answered f a x t reply l') : l.Answered f a x t reply l' :=
  { n with fetches := n.fetches.trans (Table.update_update ..) }

theorem Arrived.of_setStage {stage : FetchStage} {status : Int} {content : String}
    (n : (l.setStage f stage).Arrived x t status content l') : l.Arrived x t status content l' :=
  { n with }

theorem Missed.of_setStage {stage : FetchStage} {url : String}
    (n : (l.setStage f stage).Missed x t url l') : l.Missed x t url l' :=
  { n with }

/-- The load that waited for the handle ends by the signal that the answer causes. -/
structure Closes (l : Loader) (f : FetchId) (a : AttemptId) (h : HandleId) (t : Ticket)
    (reply : Reply) (l₁ l' : Loader) : Prop where
  records : l.Records f h reply l₁
  ended : l₁.Ended t a h (l.signalFrom h reply.signal) l'

namespace Closes

theorem handles (c : Closes l f a h t reply l₁ l') :
    l'.handles = l.handles.update h fun y => (y.record reply.record).release := by
  obtain ⟨ready, log, rfl⟩ := c.records
  exact c.ended.handles.trans (Table.update_update ..)

theorem promises (c : Closes l f a h t reply l₁ l') :
    l'.promises =
      l.promises.settle t.promise (l.outcomeOf t.chunk (l.signalFrom h reply.signal)) := by
  obtain ⟨ready, log, rfl⟩ := c.records
  exact c.ended.promises

theorem answered (c : Closes l f a h t reply l₁ l') :
    l.Answered f a { chunk := t.chunk, handle := h, done := .redeem t } t reply l' := by
  have handles := c.handles
  have promises := c.promises
  obtain ⟨⟨ready, log, rfl⟩, n⟩ := c
  exact
    { handles
      fetches := n.fetches
      attempts := n.attempts
      active := n.active
      watchdogs := n.watchdogs
      others := fun k hk => by
        rw [n.find?, if_neg hk]
        rfl
      promises := fun p hp => by rw [promises, Promises.outcome?_settle_of_ne _ _ _ _ hp] }

/-- A response that reports success ends the load well. -/
theorem arrived {status : Int} {content complaint : String}
    (c : Closes l f a h t (.response status content complaint) l₁ l') (hs : isSuccess status = true)
    (pending : l.promises.isPending t.promise = true) {y : Handle} {d : Download}
    (hy : l.handles.get? h = some y) (hd : y.download = some d) :
    l.Arrived { chunk := t.chunk, handle := h, done := .redeem t } t status content l' := by
  have handles := c.handles
  have promises := c.promises
  obtain ⟨⟨ready, log, rfl⟩, n⟩ := c
  have load : (l.signalFrom h (Reply.response status content complaint).signal).isLoad = true := by
    simp [Reply.signal, hs, signalFrom, LoadEvent.isLoad]
  refine
    { loaded := ?_
      resolved := ?_
      registry := ?_
      kept := ⟨(y.record (Reply.response status content complaint).record).release,
        { d with status := some status, content := some content }, ?_, ?_, rfl, rfl⟩ }
  · rw [n.find?, if_pos rfl]
    exact if_pos load
  · rw [promises, outcomeOf, if_pos load]
    exact Promises.outcome?_settle_of_isPending pending _
  · rw [n.registry, registryAfter]
    exact if_pos load
  · rw [handles, Table.get?_update, if_pos rfl, hy]
    rfl
  · simp [Handle.release, Handle.record, hd, Reply.record, hs]

/-- Any other answer ends the load badly. -/
theorem missed (c : Closes l f a h t reply l₁ l') (hs : reply.signal = "error")
    (pending : l.promises.isPending t.promise = true) (tidy : l.registry.Tidy l.handles)
    {y : Handle} (hy : l.handles.get? h = some y)
    (unfound : l'.cache.find? t.chunk = none → l'.findHandle t.chunk y.url = none) :
    l.Missed { chunk := t.chunk, handle := h, done := .redeem t } t y.url l' := by
  have promises := c.promises
  obtain ⟨⟨ready, log, rfl⟩, n⟩ := c
  have load : (l.signalFrom h reply.signal).isLoad = false := by
    rw [hs]
    rfl
  have notLoad : ¬(l.signalFrom h reply.signal).isLoad = true := by simp [load]
  have unknown : l'.cache.find? t.chunk = none := by
    rw [n.find?, if_pos rfl]
    exact if_neg notLoad
  have recorded : l.registry.Tidy (l.handles.update h (·.record reply.record)) :=
    tidy.update h fun _ => rfl
  have row : (l.handles.update h (·.record reply.record)).get? h =
      some (y.record reply.record) := by
    rw [Table.get?_update, if_pos rfl, hy]
    rfl
  refine
    { unknown
      failed := ?_
      unregistered := ?_
      registered := fun h' hne => ⟨n.mem_of_mem, fun hm => ?_⟩
      unfound := unfound unknown }
  · rw [promises, outcomeOf, if_neg notLoad]
    refine (Promises.outcome?_settle_of_isPending pending _).trans ?_
    simp [failureOf, LoadFailure.ofEvent, LoadFailure.causeOf, LoadEvent.request, signalFrom,
      sourceOf, hy, hs]
  · rw [n.registry]
    exact (tidy_registryAfter recorded row _).2 load
  · rw [n.registry]
    exact registryAfter_keeps _ recorded _ hm hne

end Closes

namespace Awaiting

variable {terms : Terms} {gone : HandleId → Prop}

/-- An answer for the handle of a load ends the load in the job that takes it. -/
theorem takes (i : Awaiting terms gone none l) (rest : List Job) (u : l.Unsettled)
    (hf : l.fetches.get? f = some { handle := x.handle, stage := .answered reply })
    (ha : a ∈ l.active) (hx : l.attempts.get? a = some x) :
    ∃ t l', l.cache.ticketOf? x.chunk = some t ∧
      ({ l with ready := rest }.takeAnswer f).1.drive ({ l with ready := rest }.takeAnswer f).2 =
        (l', .finished) ∧
      l.Answered f a x t reply l' ∧
      (∀ status content complaint, reply = .response status content complaint →
        isSuccess status = true → l.Arrived x t status content l') ∧
      ((∀ status content complaint, reply = .response status content complaint →
          isSuccess status = false) →
        ∃ url, terms.resolve x.chunk = .ok url ∧ l.Missed x t url l') := by
  have popped : Awaiting terms gone none { l with ready := rest } := i.loop ..
  obtain ⟨t, h, flight⟩ := popped.coupled.flight_of_active ha
  cases hx.symm.trans flight.load
  obtain ⟨y, hy, serves⟩ := i.alone a _ ha hx
  obtain ⟨d, hd⟩ := Option.isSome_iff_exists.mp serves.download
  obtain ⟨l₁, l', ⟨ready, log, h₁⟩, hdrive, ended, i'⟩ := popped.answered hf flight
  have closes : Closes l f a h t reply l₁ l' := ⟨⟨ready, log, h₁⟩, ended⟩
  have pending := u t.chunk t flight.ticket
  refine ⟨t, l', flight.ticket, hdrive, closes.answered, ?_, fun hr => ⟨y.url, serves.made.url, ?_⟩⟩
  · rintro status content complaint rfl hs
    exact closes.arrived hs pending hy hd
  · have signal : reply.signal = "error" := by
      cases reply with
      | response status content complaint => simp [Reply.signal, hr status content complaint rfl]
      | failed message => rfl
      | unsendable kind message => rfl
    exact closes.missed signal pending i.filed.tidy hy
      (i'.findHandle_eq_none serves.made.kind serves.made.url)

end Awaiting

end Loader

/-! ## §3 Uses -/

namespace Run

open Loader (Whole Awaiting)

variable {terms : Terms} {gone : HandleId → Prop} {r : Run} {m : Move}

/-- The handle was registered when a move of the history took it out of the registry. -/
def Taken (r : Run) (ms : List Move) (h : HandleId) : Prop :=
  ∃ pre post, ms = pre ++ .invoke (.remove h) :: post ∧
    h ∈ (r.steps pre).loader.registry.handles

theorem Taken.concat {ms : List Move} {h : HandleId} (ht : r.Taken ms h) (m : Move) :
    r.Taken (ms ++ [m]) h := by
  obtain ⟨pre, post, rfl, hm⟩ := ht
  exact ⟨pre, post ++ [m], by simp, hm⟩

/-- The job that ends the fetch of a load's handle by an answer ends the load. -/
theorem EndsFetch.takes {f : FetchId} {rest : List Job} {reply : Reply} {a : AttemptId} {x : Attempt}
    (ends : r.EndsFetch x.handle f rest (some reply)) (i : Awaiting terms gone none r.loader)
    (u : r.loader.Unsettled) (ha : a ∈ r.loader.active) (hx : r.loader.attempts.get? a = some x) :
    ∃ t l', r.loader.cache.ticketOf? x.chunk = some t ∧
      r.step .runJob = { r with loader := l' } ∧
      r.loader.Answered f a x t reply l' ∧
      (∀ status content complaint, reply = .response status content complaint →
        Loader.isSuccess status = true → r.loader.Arrived x t status content l') ∧
      ((∀ status content complaint, reply = .response status content complaint →
          Loader.isSuccess status = false) →
        ∃ url, terms.resolve x.chunk = .ok url ∧ r.loader.Missed x t url l') := by
  cases ends with
  | answered hidle hready hf =>
    obtain ⟨t, l', ht, hdrive, outcome⟩ := i.takes rest u hf ha hx
    refine ⟨t, l', ht, ?_, outcome⟩
    have hstep : r.step .runJob = r.after none
        (({ r.loader with ready := rest }.takeAnswer f).1.drive
          ({ r.loader with ready := rest }.takeAnswer f).2) := by
      simp only [step, hidle, Loader.nextJob?, hready, Loader.runJob]
    exact hstep.trans ((congrArg (r.after none) hdrive).trans (after_none r l'))
  | prompted hidle hready hf hp =>
    -- The fetch has its answer for a moment, and that is as if it had waited for it.
    have staged : Awaiting terms gone none (r.loader.setStage f (.answered reply)) := i.stage f rfl
    obtain ⟨t, l', ht, hdrive, answered, arrived, missed⟩ :=
      staged.takes rest u (Table.get?_update_self hf _) ha hx
    have hp' : { r.loader with ready := rest }.promptFor? x.handle = some reply := hp
    have hstep : r.step .runJob = r.after none
        (({ r.loader.setStage f (.answered reply) with ready := rest }.takeAnswer f).1.drive
          ({ r.loader.setStage f (.answered reply) with ready := rest }.takeAnswer f).2) := by
      simp only [step, hidle, Loader.nextJob?, hready, Loader.runJob, Loader.ask, hf, hp']
      rfl
    exact ⟨t, l', ht, hstep.trans ((congrArg (r.after none) hdrive).trans (after_none r l')),
      answered.of_setStage,
      fun status content complaint heq hs => (arrived status content complaint heq hs).of_setStage,
      fun hr => (missed hr).imp fun url h => ⟨h.1, h.2.of_setStage⟩⟩

end Run

end SingleFlight
