/-
SingleFlight.Proofs.Ensuring — what becomes of a task that waits for several chunks.

When the event loop gets to a task, it asks for its chunks one after the other.
If every request is answered, the task waits for the answers: until all of them
are kept, or until the first of them fails. If a request is refused, the task
ends with that. Its end touches nothing but the tasks and the queue, so the
loads of its chunks go on in either case.

All this is for uses in which nothing is cancelled; what cancellations do is in
`SingleFlight.Proofs.Cancelling`.

* `Loader.Engaged` — the invariant of a task whose requests were answered, with
  what follows from it for the task.
* `Run.Rested.job_of_changed` — a task only changes by a job that is about it.
* `Run.Rested.can_load` — an attempt in flight can still succeed.
* `Run.waits_for_all` — every use.
-/
import SingleFlight.Proofs.Histories
import SingleFlight.Proofs.Rejections

namespace SingleFlight

/-- The task that a job is about. -/
def Job.task? : Job → Option TaskId
  | .startTask t => some t
  | .childSettled t _ => some t
  | .wakeTask t => some t
  | _ => none

theorem exists_of_mem_left_forall₂ {α β : Type} {R : α → β → Prop} {xs : List α} {ys : List β}
    (h : List.Forall₂ R xs ys) {x : α} (hx : x ∈ xs) : ∃ y ∈ ys, R x y :=
  exists_of_mem_forall₂ h.flip hx

namespace Loader

variable {asked : ChunkId → Prop} {l l' : Loader} {m : Move} {t t' : TaskId} {task : Task}
  {chunk : ChunkId} {p : PromiseId} {chunks : List ChunkId} {ps : List PromiseId}

/-! ## §1 Nothing is cancelled -/

/-- What holds of a whole loader while nothing is cancelled. -/
structure Undisturbed (l : Loader) : Prop where
  attentive : Attentive l
  unsettled : l.Unsettled
  recorded : l.promises.Recorded
  uncancelled : l.Uncancelled

theorem Act.undisturbed (h : Act asked l m l') (hm : ¬m.IsCancel) (w : Whole asked l)
    (i : l.Undisturbed) : l'.Undisturbed where
  attentive := h.attentive w i.attentive
  unsettled := h.unsettled hm w i.unsettled
  recorded := h.recorded i.recorded
  uncancelled := h.uncancelled hm w i.uncancelled

theorem Leads.undisturbed (h : Leads asked l l') (w : Whole asked l) (i : l.Undisturbed) :
    l'.Undisturbed :=
  (h.acts .runJob).keeps (fun _ _ w ha i => ha.undisturbed id w i) w i

/-! ## §2 Tasks whose requests were answered -/

/-- A task that was answered with these promises, and waits for them or has. -/
structure Engaged (l : Loader) (t : TaskId) (chunks : List ChunkId) (ps : List PromiseId) :
    Prop where
  undisturbed : l.Undisturbed
  held : List.Forall₂ l.Held chunks ps
  answers : ∃ task, l.tasks.get? t = some task ∧ task.Answers l.promises ps.eraseDups False
  heeds : l.Heeds t ps.eraseDups

theorem Act.engaged (h : Act asked l m l') (hm : ¬m.IsCancel) (w : Whole asked l)
    (i : l.Engaged t chunks ps) : l'.Engaged t chunks ps where
  undisturbed := h.undisturbed hm w i.undisturbed
  held := i.held.imp fun _ _ hd => h.held hm w hd
  answers := h.answers i.undisturbed.attentive (fun heq => hm (by rw [heq]; trivial)) i.answers
  heeds := h.heeds hm i.undisturbed.attentive i.undisturbed.recorded i.heeds

/-- A task all of whose requests were answered begins to wait for the answers. -/
theorem engaged_of_collected (w : Whole asked l) (i : l.Undisturbed)
    (ht : l.tasks.get? t = some (.created chunks false)) (hc : ∀ chunk ∈ chunks, asked chunk)
    (collected : Collected l chunks ps l') : (l'.await t ps).Engaged t chunks ps := by
  obtain ⟨leads, held, sound⟩ := collected.spec w i.unsettled hc
  have ht' : l'.tasks.get? t = some (.created chunks false) := by
    rw [leads.grows.tasks]
    exact ht
  have begins : Act asked l' .runJob (l'.await t ps) :=
    .awaited ht' (held.imp fun _ _ hd => hd.handed)
  have w' := leads.whole w
  have i' := leads.undisturbed w i
  refine
    { undisturbed := begins.undisturbed id w' i'
      held := held.imp fun _ _ hd => begins.held id w' hd
      answers := ?_
      heeds := heeds_await i'.attentive ht' sound }
  unfold await
  split
  · rename_i hnil
    refine ⟨_, Table.get?_update_self ht' _, fun p hp => ?_⟩
    rw [hnil] at hp
    cases hp
  · exact ⟨_, Table.get?_update_self ht' _, rfl, nofun⟩

namespace Engaged

theorem fates (i : l.Engaged t chunks ps) (w : Whole asked l) :
    List.Forall₂ l.Fate chunks ps :=
  i.held.imp fun _ _ hd => hd.fate w i.undisturbed.uncancelled

/-- While no promise has failed, one of a chunk in flight is still pending. -/
theorem isPending (i : l.Engaged t chunks ps) (w : Whole asked l)
    (sound : ∀ p ∈ ps, l.promises.rejected p = false) (hk : chunk ∈ chunks)
    (hs : l.cache.state chunk = .inFlight) : ∃ p ∈ ps, l.promises.isPending p = true := by
  obtain ⟨p, hp, fate⟩ := exists_of_mem_left_forall₂ (i.fates w) hk
  cases fate with
  | loading ht hq hpend => exact ⟨p, hp, hpend⟩
  | kept ho hf =>
    obtain ⟨e, he, hne⟩ := hf
    unfold Cache.state at hs
    rw [he] at hs
    exact absurd hs hne
  | rejected f ho =>
    have hr := sound p hp
    rw [Promises.rejected_iff.mpr ⟨f, ho⟩] at hr
    cases hr

/-- The task does not end while a promise is pending and none has failed. -/
theorem waiting (i : l.Engaged t chunks ps) (sound : ∀ p ∈ ps, l.promises.rejected p = false)
    (hp : p ∈ ps) (hpend : l.promises.isPending p = true) :
    ∃ w, l.tasks.get? t = some (.waiting w) := by
  obtain ⟨task, ht, ha⟩ := i.answers
  match task, ha with
  | .waiting w, _ => exact ⟨w, ht⟩
  | .over .ok, ha =>
    have ho := ha p (List.mem_eraseDups.mpr hp)
    rw [(Promises.isPending_iff.mp hpend).2] at ho
    cases ho
  | .over .cancelled, ha =>
    obtain ⟨q, -, ho⟩ := ha.resolve_left id
    exact absurd ho (i.undisturbed.uncancelled q)
  | .over (.fault f), ha =>
    obtain ⟨failure, -, q, hq, ho⟩ := ha
    have hr := sound q (List.mem_eraseDups.mp hq)
    rw [Promises.rejected_iff.mpr ⟨failure, ho⟩] at hr
    cases hr

/-- A task that ends normally has every chunk loaded or skipped. -/
theorem final (i : l.Engaged t chunks ps) (hok : l.tasks.get? t = some (.over .ok))
    (hk : chunk ∈ chunks) : l.Final chunk := by
  obtain ⟨task, ht, ha⟩ := i.answers
  rw [hok] at ht
  cases ht
  obtain ⟨p, hp, hd⟩ := exists_of_mem_left_forall₂ i.held hk
  exact hd.final (ha p (List.mem_eraseDups.mpr hp))

/-- A task that ends with an error has it from the promise that failed first. -/
theorem first (i : l.Engaged t chunks ps) {f : Fault}
    (hf : l.tasks.get? t = some (.over (.fault f))) :
    ∃ failure, f = .load failure ∧ l.promises.First ps failure := by
  obtain ⟨task, ht, prompt⟩ := i.heeds
  rw [hf] at ht
  cases ht
  obtain ⟨failure, rfl, p, hp, ho⟩ := prompt f rfl
  rw [Promises.failures_eraseDups] at hp
  exact ⟨failure, rfl, p, hp, ho⟩

theorem not_cancelled (i : l.Engaged t chunks ps) :
    l.tasks.get? t ≠ some (.over .cancelled) := by
  intro hc
  obtain ⟨task, ht, ha⟩ := i.answers
  rw [hc] at ht
  cases ht
  obtain ⟨q, -, ho⟩ := ha.resolve_left id
  exact i.undisturbed.uncancelled q ho

end Engaged

/-! ### Refused requests -/

/-- A task that is over stays so. -/
theorem Act.get?_over (h : Act asked l m l') {e : TaskEnd}
    (ht : l.tasks.get? t = some (.over e)) : l'.tasks.get? t = some (.over e) := by
  obtain ⟨task', ht', moved⟩ := h.moved ht
  cases moved
  exact ht'

/-- A task that ended because a request was refused, after these were answered. -/
structure Thwarted (l : Loader) (t : TaskId) (f : Fault) (chunks : List ChunkId)
    (ps : List PromiseId) : Prop where
  undisturbed : l.Undisturbed
  held : List.Forall₂ l.Held chunks ps
  ended : l.tasks.get? t = some (.over (.fault f))

theorem Act.keeps_thwarted {f : Fault} (h : Act asked l m l') (hm : ¬m.IsCancel)
    (w : Whole asked l) (i : l.Thwarted t f chunks ps) : l'.Thwarted t f chunks ps where
  undisturbed := h.undisturbed hm w i.undisturbed
  held := i.held.imp fun _ _ hd => h.held hm w hd
  ended := h.get?_over i.ended

/-- A task whose request is refused, after some were answered none of whose promises failed. -/
theorem thwarted_of_refused (w : Whole asked l) (i : l.Undisturbed)
    (ht : l.tasks.get? t = some (.created chunks false)) (hc : ∀ chunk ∈ chunks, asked chunk)
    {done left : List ChunkId} (split : chunks = done ++ chunk :: left)
    (collected : Collected l done ps l') {l'' : Loader} {f : Fault}
    (request : l'.Requested chunk l'' (.error f)) :
    (l''.endTask t (.fault f)).Thwarted t f done ps ∧
      ∀ p ∈ ps, (l''.endTask t (.fault f)).promises.rejected p = false := by
  subst split
  obtain ⟨hdone, hrest⟩ := List.forall_mem_append.mp hc
  obtain ⟨leads, held, sound⟩ := collected.spec w i.unsettled hdone
  have w' := leads.whole w
  obtain ⟨leads', harmless, -⟩ := request.spec w' (hrest chunk (List.mem_cons_self ..))
  have all : Leads asked l l'' := leads.trans leads'
  have ht' : l''.tasks.get? t = some (.created (done ++ chunk :: left) false) := by
    rw [all.grows.tasks]
    exact ht
  have ends : Act asked l'' .runJob (l''.endTask t (.fault f)) := .thwarted ht' f
  have w'' := all.whole w
  refine ⟨?_, fun p hp => harmless.sound (sound p hp)⟩
  exact
    { undisturbed := ends.undisturbed id w'' (all.undisturbed w i)
      held := held.imp fun _ _ hd => ends.held id w'' (leads'.held w' hd)
      ended := Table.get?_update_self ht' _ }

/-! ## §3 What changes a task -/

/-- A move that runs no job and cancels nothing changes no task. -/
theorem Act.get?_task (h : Act asked l m l') (hm : ¬m.IsCancel) (hj : m ≠ .runJob)
    (ht : l.tasks.get? t = some task) : l'.tasks.get? t = some task := by
  cases h with
  | work h =>
    rw [h.grows.tasks]
    exact ht
  | attached h =>
    obtain ⟨_, _, _, h⟩ := l.outer_attach h
    rw [h]
    exact ht
  | removed h =>
    obtain ⟨_, _, _, h⟩ := l.outer_remove h
    rw [h]
    exact ht
  | ensured hc => exact Table.get?_add_of_some ht _
  | cancelled p => exact absurd trivial hm
  | taskCancelled t => exact absurd trivial hm
  | popped => exact absurd rfl hj
  | told => exact absurd rfl hj
  | woken => exact absurd rfl hj
  | dropped => exact absurd rfl hj
  | thwarted => exact absurd rfl hj
  | awaited => exact absurd rfl hj
  | _ => exact ht

/-- What becomes of another task does not show in this one. -/
theorem get?_update_of_ne (hne : t' ≠ t) (f : Task → Task) :
    (l.tasks.update t' f).get? t = l.tasks.get? t := by
  rw [Table.get?_update, if_neg hne]

theorem get?_await_of_ne (hne : t' ≠ t) (ps : List PromiseId) :
    (l.await t' ps).tasks.get? t = l.tasks.get? t := by
  unfold await
  split
  · exact get?_update_of_ne hne _
  · exact get?_update_of_ne hne _

theorem get?_childSettled_of_ne (hne : t' ≠ t) (p : PromiseId) :
    (l.childSettled t' p).tasks.get? t = l.tasks.get? t := by
  unfold childSettled
  split
  · split
    · exact get?_update_of_ne hne _
    · dsimp only
      split
      · exact get?_update_of_ne hne _
      · exact get?_update_of_ne hne _
  · rfl

theorem get?_wakeTask_of_ne (hne : t' ≠ t) : (l.wakeTask t').tasks.get? t = l.tasks.get? t := by
  unfold wakeTask
  split
  · split
    · exact get?_update_of_ne hne _
    · rfl
  · rfl

/-- A job that is not about a task leaves it as it is. -/
theorem Whole.get?_runJob (w : Whole asked l) {j : Job} (hj : j.task? ≠ some t)
    (ht : l.tasks.get? t = some task) :
    ((l.runJob j).1.drive (l.runJob j).2).1.tasks.get? t = some task := by
  -- Which move it is does not matter where the work is that of any move.
  have spared : ∀ {p : Loader × Progress}, Works asked .returns l p →
      p.1.tasks.get? t = some task := by
    intro p hw
    have other : Move.returns ≠ .runJob := nofun
    exact hw.1.keeps (I := fun l => l.tasks.get? t = some task)
      (fun _ _ _ ha h => ha.get?_task id other h) w ht
  cases j with
  | report chunk e => exact spared (w.works_of_report chunk e)
  | ask f => exact spared (w.works_ask f)
  | answer f => exact spared (w.works_takeAnswer f)
  | forget f => exact ht
  | fetchEnded c f => exact spared (Unloads.fetchEnded l c f).works
  | wakeClosing c => exact spared (Unloads.wakeClosing l c).works
  | childSettled t' p =>
    have hne : t' ≠ t := fun heq => hj (congrArg some heq)
    exact (get?_childSettled_of_ne hne p).trans ht
  | wakeTask t' =>
    have hne : t' ≠ t := fun heq => hj (congrArg some heq)
    exact (get?_wakeTask_of_ne hne).trans ht
  | startTask t' =>
    have hne : t' ≠ t := fun heq => hj (congrArg some heq)
    show ((l.startTask t').1.drive (l.startTask t').2).1.tasks.get? t = some task
    unfold startTask
    split
    · exact (get?_update_of_ne hne _).trans ht
    · rename_i chunks ht'
      obtain ⟨l', h, ⟨f, hs⟩ | ⟨ps, hs, -⟩⟩ :=
        w.leads_collect t' chunks [] (w.requested t' chunks false ht')
      all_goals
        have still : l'.tasks.get? t = some task := by
          rw [h.grows.tasks]
          exact ht
        simp only [drive, perform, hs]
      · exact (get?_update_of_ne hne _).trans still
      · exact (get?_await_of_ne hne _).trans still
    · exact ht

/-! ### The queue -/

theorem mem_ready_settlePromise {j : Job} (h : j ∈ l.ready) (p : PromiseId) (o : Outcome) :
    j ∈ (l.settlePromise p o).ready := by
  unfold settlePromise
  split
  · exact List.mem_append_left _ h
  · exact h

theorem Change.mem_ready {j : Job} (h : Change asked l l') (hj : j ∈ l.ready) : j ∈ l'.ready := by
  cases h with
  | kept =>
    refine mem_ready_settlePromise ?_ _ _
    exact hj
  | abandoned =>
    unfold abandon
    split
    · exact hj
    · exact hj
  | created => exact List.mem_append_left _ hj
  | concluded =>
    rw [detach_eq]
    exact hj
  | settled =>
    unfold settleEntry
    split
    · refine mem_ready_settlePromise ?_ _ _
      exact hj
    · refine mem_ready_settlePromise ?_ _ _
      exact hj
  | aborted =>
    refine mem_ready_settlePromise ?_ _ _
    exact hj
  | _ => exact hj

/-- A move that runs no job and cancels nothing takes none off the queue. -/
theorem Act.mem_ready {j : Job} (h : Act asked l m l') (hm : ¬m.IsCancel) (hr : m ≠ .runJob)
    (hj : j ∈ l.ready) : j ∈ l'.ready := by
  cases h with
  | work h => exact h.mem_ready hj
  | deferred => exact List.mem_append_left _ hj
  | attached h =>
    unfold attach
    split
    · exact hj
    · split
      · split
        · exact hj
        · exact List.mem_append_left _ hj
      · exact hj
  | removed h =>
    unfold remove
    split
    · exact hj
    · exact hj
  | ensured => exact List.mem_append_left _ hj
  | cancelled p => exact absurd trivial hm
  | taskCancelled t => exact absurd trivial hm
  | unloaded => exact List.mem_append_left _ hj
  | popped => exact absurd rfl hr
  | told => exact absurd rfl hr
  | woken => exact absurd rfl hr
  | awaited => exact absurd rfl hr
  | _ => exact hj

/-- A job that is run leaves the others in the queue. -/
theorem Whole.mem_ready_runJob (w : Whole asked l) (j : Job) {j' : Job} (hj : j' ∈ l.ready) :
    j' ∈ ((l.runJob j).1.drive (l.runJob j).2).1.ready := by
  have other : Move.returns ≠ .runJob := nofun
  have kept : ∀ {l' : Loader}, Acts asked .returns l l' → j' ∈ l'.ready := fun h =>
    h.keeps (I := fun l => j' ∈ l.ready) (fun _ _ _ ha h => ha.mem_ready id other h) w hj
  cases j with
  | report chunk e => exact kept (w.works_of_report chunk e).1
  | ask f => exact kept (w.works_ask f).1
  | answer f => exact kept (w.works_takeAnswer f).1
  | forget f => exact hj
  | fetchEnded c f => exact kept ((Unloads.fetchEnded l c f).acts _)
  | wakeClosing c => exact kept ((Unloads.wakeClosing l c).acts _)
  | childSettled t p =>
    show j' ∈ (l.childSettled t p).ready
    unfold Loader.childSettled
    split
    · split
      · exact hj
      · dsimp only
        split
        · exact List.mem_append_left _ hj
        · exact hj
    · exact hj
  | wakeTask t =>
    show j' ∈ (l.wakeTask t).ready
    unfold Loader.wakeTask
    split
    · split
      · exact hj
      · exact hj
    · exact hj
  | startTask t =>
    show j' ∈ ((l.startTask t).1.drive (l.startTask t).2).1.ready
    unfold startTask
    split
    · exact hj
    · rename_i chunks ht
      obtain ⟨l', h, ⟨f, hs⟩ | ⟨ps, hs, -⟩⟩ :=
        w.leads_collect t chunks [] (w.requested t chunks false ht)
      all_goals
        have behind : j' ∈ l'.ready := kept (h.acts _)
        simp only [drive, perform, hs]
      · exact behind
      · unfold Loader.await
        split
        · exact behind
        · exact List.mem_append_left _ behind
    · exact hj

/-- The event loop has not got to the task yet, and its job is in the queue. -/
structure Unstarted (l : Loader) (t : TaskId) (chunks : List ChunkId) : Prop where
  created : l.tasks.get? t = some (.created chunks false)
  queued : .startTask t ∈ l.ready

/-! ## §4 Loads that can still succeed -/

/-- The chunk is loaded, and the promise is kept. -/
def LoadedFor (l : Loader) (chunk : ChunkId) (p : PromiseId) : Prop :=
  l.cache.find? chunk = some .loaded ∧ l.promises.outcome? p = some .ok

/-- An attempt in flight, with its promise. -/
def Flying (l : Loader) (t : Ticket) : Prop :=
  l.cache.ticketOf? t.chunk = some t ∧ l.promises.isPending t.promise = true

theorem Flying.settleEntry {t : Ticket} (h : l.Flying t) {e : LoadEvent} (he : e.isLoad = true) :
    (l.settleEntry t e).LoadedFor t.chunk t.promise := by
  obtain ⟨ready, log, heq⟩ := l.settleEntry_eq t e
  rw [heq]
  refine ⟨?_, ?_⟩
  · simp only [he, if_true]
    exact (Cache.find?_finish ..).trans (if_pos rfl)
  · simp only [outcomeOf, he, if_true]
    exact Promises.outcome?_settle_of_isPending h.2 .ok

/-- A report of success reaches the cache. -/
theorem settle_of_flying {t : Ticket} {e : LoadEvent} (he : e.isLoad = true)
    (h : l.LoadedFor t.chunk t.promise ∨ l.Flying t) :
    (l.drive [.settle t e]).1.LoadedFor t.chunk t.promise := by
  simp only [drive, perform]
  rcases h with h | h
  · have gone : l.cache.ticketOf? t.chunk = none := by
      unfold Cache.ticketOf?
      rw [h.1]
    rw [Cache.not_honours_of_ticketOf? gone]
    exact h
  · rw [Cache.honours_of_ticketOf? h.1]
    exact h.settleEntry he

/-- The end of a load reaches the attempt that it was for, and no other one. -/
theorem redeem_of_flying {t t' : Ticket} {e : LoadEvent} (he : e.isLoad = true)
    (w : Whole asked l) (h : l.Flying t) :
    (l.redeem t' e).LoadedFor t.chunk t.promise ∨ (l.redeem t' e).Flying t := by
  cases hh : l.cache.honours t' with
  | false =>
    obtain ⟨log, heq⟩ := redeem_of_not_honours hh e
    rw [heq]
    exact .inr h
  | true =>
    rw [redeem_of_honours hh]
    obtain ⟨p, hp, hprom⟩ := Cache.honours_iff.mp hh
    have ticket : l.cache.ticketOf? t'.chunk = some ⟨t'.chunk, p.promise, p.attempt⟩ :=
      Cache.ticketOf?_eq_some.mpr ⟨p, hp, rfl⟩
    obtain ⟨ready, log, heq⟩ := l.settleEntry_eq t' e
    rw [heq]
    by_cases hk : t.chunk = t'.chunk
    · have same : t.promise = t'.promise := by
        have ht := h.1
        rw [hk, ticket] at ht
        rw [← hprom, ← Option.some.inj ht]
      refine .inl ⟨?_, ?_⟩
      · simp only [he, if_true, hk]
        exact (Cache.find?_finish ..).trans (if_pos rfl)
      · simp only [outcomeOf, he, if_true, same]
        exact Promises.outcome?_settle_of_isPending (same ▸ h.2) .ok
    · have other : t.promise ≠ t'.promise := by
        rw [← hprom]
        exact fun heq => hk (w.distinct _ _ _ _ h.1 ticket heq)
      refine .inr ⟨?_, ?_⟩
      · exact (Cache.ticketOf?_ended ..).trans ((if_neg hk).trans h.1)
      · rw [Promises.isPending_settle, h.2, decide_eq_true other]
        rfl

/--
A report of success ends the attempt that it is for, unless the sink refuses to count the load that
ends by it: then there is one load less.
-/
theorem Whole.report_flying {t : Ticket} {e : LoadEvent} (he : e.isLoad = true)
    (w : Whole asked l) (h : l.Flying t) {l' : Loader}
    (hl : ((l.report t.chunk e).1.drive (l.report t.chunk e).2).1 = l') :
    l'.LoadedFor t.chunk t.promise ∨
      l'.Flying t ∧ l'.active.length < l.active.length := by
  subst hl
  have hr : l.report t.chunk e = (l, [.consult t.chunk e, .settle t e]) := by
    simp only [report, h.1]
  rw [hr]
  obtain ⟨resolve, hw⟩ := w.wired
  -- Whatever becomes of the first active load of the chunk, the cache is told next.
  have settled : ∀ {l₁ : Loader}, l.consult t.chunk e = (l₁, .through) →
      l₁.LoadedFor t.chunk t.promise ∨ l₁.Flying t →
      (l.drive [.consult t.chunk e, .settle t e]).1.LoadedFor t.chunk t.promise := by
    intro l₁ hc h₁
    have hd : l.drive [.consult t.chunk e, .settle t e] = l₁.drive [.settle t e] := by
      rw [drive]
      simp only [perform, hc]
    rw [hd]
    exact settle_of_flying he h₁
  cases ha : l.activeFor? t.chunk with
  | none => exact .inl (settled (by simp [consult, hw, ha]) (.inr h))
  | some a =>
    have hcon : l.consult t.chunk e = l.settleLoad a e := by simp [consult, hw, ha]
    cases hx : l.attempts.get? a with
    | none => exact .inl (settled (by simp [hcon, settleLoad, signal, hx]) (.inr h))
    | some x =>
      cases hs : x.settled with
      | true => exact .inl (settled (by simp [hcon, settleLoad, signal, hx, hs]) (.inr h))
      | false =>
        obtain ⟨t', ht'⟩ := w.redeems a x hx
        obtain ⟨l₁, refusal, hend, leads⟩ := leads_conclude asked hx hs e
        obtain ⟨sink, log, refusal', hshape⟩ := l.conclude_shape a x e
        have flying : l₁.Flying t ∧ l₁.active.length < l.active.length := by
          rw [hend, detach_eq] at hshape
          cases hshape
          refine ⟨h, List.length_filter_lt_length_iff_exists.mpr ⟨a, ?_, by simp⟩⟩
          exact List.mem_of_find?_eq_some ha
        cases refusal with
        | none =>
          have hthrough : l.consult t.chunk e = (l₁.redeem t' e, .through) := by
            simp [hcon, settleLoad, signal, hx, hs, hend, ht']
          exact .inl (settled hthrough (redeem_of_flying he (leads.whole w) flying.1))
        | some f =>
          have hfails : l.consult t.chunk e = (l₁, .fails f) := by
            simp [hcon, settleLoad, signal, hx, hs, hend]
          have hd : l.drive [.consult t.chunk e, .settle t e] = (l₁, .raised f) := by
            rw [drive]
            simp only [perform, hfails, unwind]
          rw [hd]
          exact .inr flying

end Loader

/-! ## §5 Uses -/

namespace Run

open Loader (Whole Act)

variable {asked : ChunkId → Prop} {r : Run} {m : Move} {t : TaskId} {task : Task}
  {chunks : List ChunkId} {ps : List PromiseId}

/-- A task only changes by a job that is about it. -/
theorem Rested.job_of_changed (h : r.Rested asked) (hm : m.Outer) (ha : m.Asks asked)
    (hc : ¬m.IsCancel) (ht : r.loader.tasks.get? t = some task)
    (hne : (r.step m).loader.tasks.get? t ≠ some task) :
    m = .runJob ∧ r.idle = true ∧
      ∃ j rest, r.loader.ready = j :: rest ∧ j.task? = some t := by
  by_cases hj : m = .runJob
  · subst hj
    cases hidle : r.idle with
    | false =>
      refine absurd ht ?_
      simpa only [step, hidle] using hne
    | true =>
      cases hready : r.loader.ready with
      | nil =>
        refine absurd ht ?_
        simpa only [step, hidle, Loader.nextJob?, hready] using hne
      | cons j rest =>
        refine ⟨rfl, rfl, j, rest, rfl, ?_⟩
        by_contra hother
        rw [loader_step_runJob hidle hready] at hne
        exact hne ((h.whole.queue rest).get?_runJob hother ht)
  · exact absurd ((h.acts hm ha).1.keeps (I := fun l => l.tasks.get? t = some task)
      (fun _ _ _ act hi => act.get?_task hc hj hi) h.whole ht) hne

/-- A task is in the queue until it is started, and it is started when its turn comes. -/
theorem Rested.starts (h : r.Rested asked) (hm : m.Outer) (ha : m.Asks asked) (hc : ¬m.IsCancel)
    (hu : r.loader.Unstarted t chunks) (hne : ¬(r.step m).loader.Unstarted t chunks) :
    m = .runJob ∧ r.idle = true ∧ ∃ rest, r.loader.ready = .startTask t :: rest := by
  obtain ⟨ht, hq⟩ := hu
  by_contra hno
  refine hne ⟨?_, ?_⟩
  · by_contra hchanged
    obtain ⟨rfl, hidle, j, rest, hready, hj⟩ := h.job_of_changed hm ha hc ht hchanged
    rw [loader_step_runJob hidle hready] at hchanged
    cases j with
    | startTask t' =>
      cases hj
      exact hno ⟨rfl, hidle, rest, hready⟩
    | childSettled t' p =>
      cases hj
      simp only [Loader.runJob, Loader.childSettled, ht, Loader.drive] at hchanged
      exact hchanged trivial
    | wakeTask t' =>
      cases hj
      simp only [Loader.runJob, Loader.wakeTask, ht, Loader.drive] at hchanged
      exact hchanged trivial
    | _ => cases hj
  · by_cases hrun : m = .runJob
    · subst hrun
      cases hidle : r.idle with
      | false => simpa only [step, hidle] using hq
      | true =>
        cases hready : r.loader.ready with
        | nil =>
          rw [hready] at hq
          cases hq
        | cons j rest =>
          have behind : .startTask t ∈ rest := by
            rw [hready] at hq
            refine (List.mem_cons.mp hq).resolve_left ?_
            rintro rfl
            exact hno ⟨rfl, hidle, rest, hready⟩
          rw [loader_step_runJob hidle hready]
          exact (h.whole.queue rest).mem_ready_runJob j behind
    · exact (h.acts hm ha).1.keeps (I := fun l => .startTask t ∈ l.ready)
        (fun _ _ _ act hi => act.mem_ready hc hrun hi) h.whole hq

/-- A task that was started changes, and ends, without touching more than the tasks and the queue. -/
theorem Rested.apart (h : r.Rested asked) (hm : m.Outer) (ha : m.Asks asked) (hc : ¬m.IsCancel)
    (ht : r.loader.tasks.get? t = some task) (started : ∀ chunks b, task ≠ .created chunks b)
    (hne : (r.step m).loader.tasks.get? t ≠ some task) :
    ∃ tasks ready, (r.step m).loader = { r.loader with tasks, ready } := by
  obtain ⟨rfl, hidle, j, rest, hready, hj⟩ := h.job_of_changed hm ha hc ht hne
  rw [loader_step_runJob hidle hready] at hne ⊢
  cases j with
  | childSettled t' p =>
    obtain ⟨tasks, ready, heq⟩ := Loader.childSettled_eq { r.loader with ready := rest } t' p
    exact ⟨tasks, ready, heq⟩
  | wakeTask t' =>
    obtain ⟨tasks, heq⟩ := Loader.wakeTask_eq { r.loader with ready := rest } t'
    exact ⟨tasks, rest, heq⟩
  | startTask t' =>
    cases hj
    have nothing : ({ r.loader with ready := rest } : Loader).runJob (.startTask t) =
        ({ r.loader with ready := rest }, []) := by
      simp only [Loader.runJob, Loader.startTask, ht]
      cases task with
      | created chunks b => exact absurd rfl (started chunks b)
      | _ => rfl
    rw [nothing] at hne
    exact absurd ht hne
  | _ => cases hj

/-- Reports of success for one chunk. -/
def successes (chunk : ChunkId) (n : Nat) : List Move :=
  List.replicate n (.invoke (.report chunk { type := "load" }))

/-- An attempt in flight can still succeed, however often the sink refuses to count. -/
theorem Rested.can_load (h : r.Rested asked) {t : Ticket} (hf : r.loader.Flying t) :
    ∃ n, (r.steps (successes t.chunk n)).loader.LoadedFor t.chunk t.promise := by
  induction hn : r.loader.active.length using Nat.strong_induction_on generalizing r with
  | _ n ih =>
    let report : Move := .invoke (.report t.chunk { type := "load" })
    have hstep : (((r.loader.report t.chunk { type := "load" }).1.drive
        (r.loader.report t.chunk { type := "load" }).2).1) = (r.step report).loader :=
      (after_loader ..).symm
    rcases h.whole.report_flying (by decide) hf hstep with loaded | ⟨flying, fewer⟩
    · exact ⟨1, loaded⟩
    · have rested := (h.acts (m := report) trivial trivial).2
      obtain ⟨k, hk⟩ := ih _ (hn ▸ fewer) rested flying rfl
      exact ⟨k + 1, hk⟩

/-- How chunks stand that were asked for, with the promises that requests for them came to. -/
structure Outstanding (r : Run) (chunks : List ChunkId) (ps : List PromiseId) : Prop where
  fates : List.Forall₂ r.loader.Fate chunks ps
  /-- An attempt in flight can still succeed. -/
  hopeful : ∀ chunk p, (chunk, p) ∈ chunks.zip ps → r.loader.promises.isPending p = true →
    ∃ n, (r.steps (successes chunk n)).loader.LoadedFor chunk p

/-- How a task stands whose requests for the chunks were answered with these promises. -/
structure Ensured (r : Run) (t : TaskId) (chunks : List ChunkId) (ps : List PromiseId) :
    Prop where
  outstanding : r.Outstanding chunks ps
  /-- It does not end while no promise has failed and a chunk is in flight. -/
  waits : (∀ p ∈ ps, r.loader.promises.rejected p = false) →
    (∃ chunk ∈ chunks, r.loader.cache.state chunk = .inFlight) →
      ∃ w, r.loader.tasks.get? t = some (.waiting w)
  /-- When nothing is left to run, it waits for a promise that is pending, and none has failed. -/
  quiet : ∀ w, r.loader.tasks.get? t = some (.waiting w) → r.loader.ready = [] →
    (∃ p ∈ ps, r.loader.promises.isPending p = true) ∧
      ∀ p ∈ ps, r.loader.promises.rejected p = false
  /-- If it ends normally, every chunk is loaded or skipped, and stays so whatever is done. -/
  normal : r.loader.tasks.get? t = some (.over .ok) → ∀ chunk ∈ chunks,
    ∃ s, (s = .loaded ∨ s = .skipped) ∧ r.loader.cache.state chunk = s ∧
      ∀ r', Reachable (fun _ m => m.Outer) r r' → r'.loader.cache.state chunk = s
  /-- If it ends with an error, that is the one of the promise that failed first. -/
  first : ∀ f, r.loader.tasks.get? t = some (.over (.fault f)) →
    ∃ chunk p failure, (chunk, p) ∈ chunks.zip ps ∧
      (r.loader.promises.failures ps).head? = some p ∧
        r.loader.promises.outcome? p = some (.failed failure) ∧ f = .load failure
  uncancelled : r.loader.tasks.get? t ≠ some (.over .cancelled)
  /-- What happens to it, its end included, happens to no chunk, promise or load. -/
  apart : ∀ m, m.Outer → ¬m.IsCancel →
    (r.step m).loader.tasks.get? t ≠ r.loader.tasks.get? t →
      ∃ tasks ready, (r.step m).loader = { r.loader with tasks, ready }

/--
What the start of a task comes to. In `s` the event loop gets to the task, with `rest` behind it in
the queue; `r` is then or later.
-/
inductive Started (s : Run) (rest : List Job) (t : TaskId) (chunks : List ChunkId) (r : Run) :
    Prop
  /-- All its requests are answered, and it begins to wait for the answers. -/
  | answered {ps : List PromiseId} {l : Loader}
      (collected : Loader.Collected { s.loader with ready := rest } chunks ps l)
      (begun : (s.step .runJob).loader = l.await t ps) (ensured : r.Ensured t chunks ps)
  /-- One is refused: the task ends with that, and the requests before go on. -/
  | refused {done left : List ChunkId} {chunk : ChunkId} {ps : List PromiseId} {l l' : Loader}
      {f : Fault} (split : chunks = done ++ chunk :: left)
      (collected : Loader.Collected { s.loader with ready := rest } done ps l)
      (request : l.Requested chunk l' (.error f))
      (begun : (s.step .runJob).loader = l'.endTask t (.fault f))
      (unharmed : ∀ p ∈ ps, (s.step .runJob).loader.promises.rejected p = false)
      (ended : r.loader.tasks.get? t = some (.over (.fault f)))
      (outstanding : r.Outstanding done ps)

/-- What becomes of a task that was created in `s`, when these moves are made. -/
inductive Waits (s : Run) (t : TaskId) (chunks : List ChunkId) (ms : List Move) : Prop
  /-- The event loop has not got to it, and will. -/
  | queued (unstarted : (s.steps ms).loader.Unstarted t chunks)
  | started {pre post : List Move} {rest : List Job} (split : ms = pre ++ .runJob :: post)
      (idle : (s.steps pre).idle = true)
      (turn : (s.steps pre).loader.ready = .startTask t :: rest)
      (started : (s.steps pre).Started rest t chunks (s.steps ms))

theorem Rested.outstanding (h : r.Rested asked) (u : r.loader.Uncancelled)
    (held : List.Forall₂ r.loader.Held chunks ps) : r.Outstanding chunks ps := by
  have fates := held.imp fun _ _ hd => hd.fate h.whole u
  refine ⟨fates, fun chunk p hm hpend => ?_⟩
  cases (List.forall₂_iff_zip.mp fates).2 hm with
  | @loading t ht hp hpend' =>
    subst hp
    have hk := Cache.chunk_of_ticketOf? ht
    subst hk
    exact h.can_load ⟨ht, hpend'⟩
  | kept ho =>
    rw [Promises.isPending_of_outcome? ho] at hpend
    cases hpend
  | rejected f ho =>
    rw [Promises.isPending_of_outcome? ho] at hpend
    cases hpend

/-- A chunk that is loaded or skipped stays so, whatever is done. -/
theorem Rested.stays_final (h : r.Rested fun _ => True) {chunk : ChunkId}
    (hf : r.loader.Final chunk) :
    ∃ s, (s = .loaded ∨ s = .skipped) ∧ r.loader.cache.state chunk = s ∧
      ∀ r', Reachable (fun _ m => m.Outer) r r' → r'.loader.cache.state chunk = s := by
  obtain ⟨e, he, hne⟩ := hf
  have shown : ∀ {c : Cache}, c.find? chunk = some e → c.state chunk = e.state := by
    intro c hc
    unfold Cache.state
    rw [hc]
  refine ⟨e.state, ?_, shown he, fun r' hr' => shown ?_⟩
  · cases e with
    | inFlight p => exact absurd rfl hne
    | loaded => exact .inl rfl
    | skipped => exact .inr rfl
  · exact (Rested.of_reachable (I := fun l => l.cache.find? chunk = some e)
      (fun _ m hm => ⟨hm, m.asks_all⟩) (fun _ _ _ _ _ _ act hi => act.final hi hne) h he hr').2

/-- The first of several promises that failed, and the chunk that it was for. -/
theorem exists_of_first {l : Loader} (held : List.Forall₂ l.Held chunks ps) {failure : LoadFailure}
    (h : l.promises.First ps failure) :
    ∃ chunk p, (chunk, p) ∈ chunks.zip ps ∧ (l.promises.failures ps).head? = some p ∧
      l.promises.outcome? p = some (.failed failure) := by
  obtain ⟨p, hp, ho⟩ := h
  have hm : p ∈ ps := by
    have hmem := List.mem_of_mem_head? (Option.mem_def.mpr hp)
    exact List.contains_iff_mem.mp (Bool.and_eq_true_iff.mp (List.mem_filter.mp hmem).2).1
  obtain ⟨i, hi, rfl⟩ := List.mem_iff_getElem.mp hm
  have hlt : i < chunks.length := held.length_eq ▸ hi
  refine ⟨chunks[i], _, ?_, hp, ho⟩
  rw [← List.getElem_zip (h := by simp [hlt, hi])]
  exact List.getElem_mem _

theorem Rested.ensured (h : r.Rested fun _ => True) (i : r.loader.Engaged t chunks ps) :
    r.Ensured t chunks ps where
  outstanding := h.outstanding i.undisturbed.uncancelled i.held
  waits := by
    rintro sound ⟨chunk, hk, hs⟩
    obtain ⟨p, hp, hpend⟩ := i.isPending h.whole sound hk hs
    exact i.waiting sound hp hpend
  quiet := by
    intro w ht hq
    obtain ⟨task, ht', ha⟩ := i.answers
    rw [ht] at ht'
    cases ht'
    obtain ⟨⟨p, hp, hpend⟩, all⟩ := hears_quiet (i.undisturbed.attentive.hears t w ht) hq
    rw [ha.1] at hp all
    refine ⟨⟨p, List.mem_eraseDups.mp hp, hpend⟩, fun q hq => ?_⟩
    rcases all q (List.mem_eraseDups.mpr hq) with hpend | ho
    · exact Promises.rejected_of_isPending hpend
    · unfold Promises.rejected
      rw [ho]
  normal := fun hok chunk hk => h.stays_final (i.final hok hk)
  first := by
    intro f hf
    obtain ⟨failure, rfl, first⟩ := i.first hf
    obtain ⟨chunk, p, hm, hp, ho⟩ := exists_of_first i.held first
    exact ⟨chunk, p, failure, hm, hp, ho, rfl⟩
  uncancelled := i.not_cancelled
  apart := by
    intro m hm hc hne
    obtain ⟨task, ht, ha⟩ := i.answers
    rw [ht] at hne
    refine h.apart hm m.asks_all hc ht (fun chunks b heq => ?_) hne
    rw [heq] at ha
    exact ha

/-- What every act keeps that is no cancellation, moves keep that are none. -/
theorem Rested.steps_uncancelled {I : Loader → Prop} {ms : List Move}
    (h : r.Rested fun _ => True) (keeps : ∀ m l l', ¬m.IsCancel → Whole (fun _ => True) l →
      Act (fun _ => True) l m l' → I l → I l')
    (hI : I r.loader) (hms : ∀ m ∈ ms, m.Outer ∧ ¬m.IsCancel) :
    (r.steps ms).Rested (fun _ => True) ∧ I (r.steps ms).loader := by
  have reach : Reachable (fun _ m => m.Outer ∧ ¬m.IsCancel) r (r.steps ms) :=
    Reachable.start.steps ms fun _ m hm => hms m hm
  exact Rested.of_reachable (fun _ m hm => ⟨hm.1, m.asks_all⟩)
    (fun _ m hm l l' w act hi => keeps m l l' hm.2 w act hi) h hI reach

/-- The event loop gets to a task that has not started. -/
theorem Rested.started {s : Run} {rest : List Job} {ms : List Move}
    (h : s.Rested fun _ => True) (i : s.loader.Undisturbed) (hidle : s.idle = true)
    (hready : s.loader.ready = .startTask t :: rest)
    (ht : s.loader.tasks.get? t = some (.created chunks false))
    (hms : ∀ m ∈ ms, m.Outer ∧ ¬m.IsCancel) :
    s.Started rest t chunks ((s.step .runJob).steps ms) := by
  have w : Whole (fun _ => True) { s.loader with ready := rest } := h.whole.queue rest
  have popped : Act (fun _ => True) s.loader .runJob { s.loader with ready := rest } :=
    .popped hready nofun nofun
  have i' := popped.undisturbed id h.whole i
  have rested := (h.acts (m := .runJob) trivial (Move.asks_all _)).2
  have hrun : (s.step .runJob).loader =
      (Loader.drive [.collect t [] chunks] { s.loader with ready := rest }).1 := by
    rw [loader_step_runJob hidle hready]
    simp only [Loader.runJob, Loader.startTask, ht]
  rw [Loader.fst_drive_single] at hrun
  rcases w.collect_cases t chunks [] fun _ _ => trivial with
    ⟨ps, l, collected, hcol⟩ |
      ⟨done, chunk, left, ps, l, l', f, split, collected, request, hcol⟩
  · have begun : (s.step .runJob).loader = l.await t ps := by
      rw [hrun]
      simp only [Loader.perform, hcol, List.nil_append]
    have engaged := Loader.engaged_of_collected w i' ht (fun _ _ => trivial) collected
    rw [← begun] at engaged
    obtain ⟨rested', engaged'⟩ := rested.steps_uncancelled
      (fun _ _ _ hc w act i => act.engaged hc w i) engaged hms
    exact .answered collected begun (rested'.ensured engaged')
  · have begun : (s.step .runJob).loader = l'.endTask t (.fault f) := by
      rw [hrun]
      simp only [Loader.perform, hcol]
    obtain ⟨thwarted, unharmed⟩ :=
      Loader.thwarted_of_refused w i' ht (fun _ _ => trivial) split collected request
    rw [← begun] at thwarted unharmed
    obtain ⟨rested', thwarted'⟩ := rested.steps_uncancelled
      (fun _ _ _ hc w act i => act.keeps_thwarted hc w i) thwarted hms
    exact .refused split collected request begun unharmed thwarted'.ended
      (rested'.outstanding thwarted'.undisturbed.uncancelled thwarted'.held)

/-- A whole loader as it is opened. -/
theorem undisturbed_whole (policy : Policy) (resolve : ChunkId → Except Fault String)
    (hasAsset : ChunkId → Bool) {installed : List (ChunkId × String)} {cache : Cache}
    (hc : Cache.seed installed = .ok cache) (registry : Registry) (sink : Metrics.Sink) :
    Loader.Undisturbed (.whole policy resolve hasAsset cache registry sink) where
  attentive :=
    { hears := fun t w ht => by simp [Loader.whole, Table.get?] at ht
      news := fun t p hm => nomatch hm }
  unsettled := fun k t ht => by simp [Loader.whole, (Cache.seed_spec hc).2.1] at ht
  recorded := fun p => by simp [Loader.whole, Promises.outcome?, Table.get?]
  uncancelled := fun p => by simp [Loader.whole, Promises.outcome?, Table.get?]

/--
A task asks for chunks, at any point of a use in which nothing is cancelled. Until the event loop
gets to it, it is in the queue. Then its requests are answered, and it waits until all the promises
are kept or the first of them has failed; or a request is refused, and it ends with that.
-/
theorem waits_for_all {policy : Policy} {resolve : ChunkId → Except Fault String}
    {hasAsset : ChunkId → Bool} {installed : List (ChunkId × String)} {cache : Cache}
    {registry : Registry} {sink : Metrics.Sink} {r : Run} {ms : List Move}
    (hc : Cache.seed installed = .ok cache)
    (hr : Reachable (fun _ m => m.Outer ∧ ¬m.IsCancel)
      { loader := .whole policy resolve hasAsset cache registry sink } r)
    (chunks : List ChunkId) (hms : ∀ m ∈ ms, m.Outer ∧ ¬m.IsCancel) :
    (r.step (.invoke (.ensure chunks))).Waits r.loader.tasks.size chunks ms := by
  have opened := Rested.opened (fun _ => True) policy resolve hasAsset hc registry sink
  obtain ⟨rested, undisturbed⟩ := Rested.of_reachable (I := Loader.Undisturbed)
    (fun _ m hm => ⟨hm.1, m.asks_all⟩) (fun _ _ hm _ _ w act i => act.undisturbed hm.2 w i) opened
    (undisturbed_whole policy resolve hasAsset hc registry sink) hr
  have ensure : Act (fun _ => True) r.loader (.invoke (.ensure chunks))
      (r.step (.invoke (.ensure chunks))).loader := .ensured fun _ _ => trivial
  have rested' := (rested.acts (m := .invoke (.ensure chunks)) trivial (Move.asks_all _)).2
  have undisturbed' := ensure.undisturbed id rested.whole undisturbed
  have queued : (r.step (.invoke (.ensure chunks))).loader.Unstarted r.loader.tasks.size chunks :=
    ⟨Table.get?_add_size .., List.mem_append_right _ (List.mem_singleton.mpr rfl)⟩
  by_cases unstarted : ((r.step (.invoke (.ensure chunks))).steps ms).loader.Unstarted
      r.loader.tasks.size chunks
  · exact .queued unstarted
  · obtain ⟨pre, m, post, rfl, hu, hstart⟩ := exists_flip
      (P := fun s => s.loader.Unstarted r.loader.tasks.size chunks) queued unstarted
    have hmoves := List.forall_mem_append.mp hms
    have hm := hmoves.2 m (List.mem_cons_self ..)
    obtain ⟨rested₁, undisturbed₁⟩ := rested'.steps_uncancelled
      (fun _ _ _ hc w act i => act.undisturbed hc w i) undisturbed' hmoves.1
    obtain ⟨rfl, hidle, rest, hready⟩ := rested₁.starts hm.1 m.asks_all hm.2 hu hstart
    refine .started rfl hidle hready ?_
    rw [steps_append, steps_cons]
    exact rested₁.started undisturbed₁ hidle hready hu.created
      fun m' hm' => hmoves.2 m' (List.mem_cons_of_mem _ hm')

/--
One chunk is in flight already, and listed twice. The one that fails first is listed later, so its
failure ends the task; a chunk that has not failed is still in flight then.
-/
theorem waits_for_all_of_three :
    let opened : Run :=
      { loader := .whole {} (fun k => .ok k.text) (fun _ => true) {} (.document [] 0) .silent }
    let r := opened.step (.invoke (.request (.name "a")))
    let chunks : List ChunkId := [.name "a", .name "b", .name "a", .name "c"]
    let ms : List Move :=
      [.runJob, .invoke (.report (.name "b") { type := "error" }),
        .invoke (.report (.name "a") { type := "error" }), .runJob, .runJob, .runJob]
    let s := r.step (.invoke (.ensure chunks))
    s.Waits 0 chunks ms ∧
      ((s.steps ms).loader.tasks.get? 0 matches
        some (.over (.fault (.load { chunk := .name "b", cause := .failed "error", .. })))) ∧
        (s.steps ms).loader.promises.failures [0, 1, 0, 2] = [1, 0] ∧
          (s.steps ms).loader.cache.state (.name "c") = .inFlight := by
  intro opened r chunks ms s
  have hc : Cache.seed [] = .ok {} := rfl
  have hr : Reachable (fun _ m => m.Outer ∧ ¬m.IsCancel) opened r :=
    Reachable.start.step ⟨trivial, id⟩
  have hms : ∀ m ∈ ms, m.Outer ∧ ¬m.IsCancel := by
    intro m hm
    simp only [ms, List.mem_cons, List.not_mem_nil, or_false] at hm
    rcases hm with rfl | rfl | rfl | rfl | rfl | rfl
    all_goals exact ⟨trivial, id⟩
  exact ⟨waits_for_all hc hr chunks hms, by decide, by decide, by decide⟩

end Run

end SingleFlight
