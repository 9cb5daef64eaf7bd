/-
SingleFlight.Proofs.Rejections — which failure ends a task.

Promises settle one after the other, and the tasks that wait for them are told
through the queue of the event loop, which keeps the order. So of several
failures a task hears of the earliest first, however many have come by then, and
that one decides its wait.

* `Promises.Recorded` — the record of what has settled is complete;
  `Promises.failures` — some promises that failed, in the order in which they did.
* `Loader.news` — what is on its way to a task.
* `Loader.Heeds` — the invariant: what a task has yet to hear of failures is all
  that there is, in order, or its wait is decided by the first of them.
-/
import SingleFlight.Proofs.Collecting

namespace SingleFlight

/-! ## §1 The record of promises -/

namespace Promises

variable {ps : Promises} {p q : PromiseId} {o : Outcome} {promises : List PromiseId}

/-- The promises on record are those that have settled. -/
def Recorded (ps : Promises) : Prop :=
  ∀ p, p ∈ ps.settled ↔ ∃ o, ps.outcome? p = some o

/-- Those of some promises that have failed, in the order in which they did. -/
def failures (ps : Promises) (promises : List PromiseId) : List PromiseId :=
  ps.settled.filter fun p => promises.contains p && ps.rejected p

/-- The promise that failed first, of several, did so with this failure. -/
def First (ps : Promises) (promises : List PromiseId) (f : LoadFailure) : Prop :=
  ∃ p, (ps.failures promises).head? = some p ∧ ps.outcome? p = some (.failed f)

theorem settle_of_isPending (h : ps.isPending p = true) (o : Outcome) :
    (ps.settle p o).settled = ps.settled ++ [p] := by
  unfold settle
  rw [if_pos h]

theorem settle_of_not_isPending (h : ps.isPending p = false) (o : Outcome) :
    ps.settle p o = ps := by
  unfold settle
  rw [h]
  rfl

theorem Recorded.ne_of_isPending (r : ps.Recorded) (hq : q ∈ ps.settled)
    (hp : ps.isPending p = true) : q ≠ p := by
  rintro rfl
  obtain ⟨o, ho⟩ := (r q).mp hq
  rw [(isPending_iff.mp hp).2] at ho
  cases ho

theorem Recorded.create (r : ps.Recorded) : ps.create.1.Recorded := by
  intro q
  rw [outcome?_create]
  exact r q

theorem Recorded.settle (r : ps.Recorded) (p : PromiseId) (o : Outcome) :
    (ps.settle p o).Recorded := by
  cases hp : ps.isPending p with
  | false =>
    rw [settle_of_not_isPending hp]
    exact r
  | true =>
    intro q
    rw [settle_of_isPending hp, List.mem_append, List.mem_singleton]
    by_cases hq : q = p
    · rw [hq]
      exact ⟨fun _ => ⟨o, outcome?_settle_of_isPending hp o⟩, fun _ => .inr rfl⟩
    · rw [outcome?_settle_of_ne _ _ _ _ hq, r q]
      simp [hq]

theorem failures_create (ps : Promises) (promises : List PromiseId) :
    ps.create.1.failures promises = ps.failures promises := by
  refine List.filter_congr fun q _ => ?_
  rw [rejected_congr (outcome?_create ps q)]

/-- It does not matter how often a promise is listed. -/
theorem failures_eraseDups (ps : Promises) (promises : List PromiseId) :
    ps.failures promises.eraseDups = ps.failures promises := by
  refine List.filter_congr fun p _ => ?_
  have listed : promises.eraseDups.contains p = promises.contains p := by
    rw [Bool.eq_iff_iff, List.contains_iff_mem, List.contains_iff_mem, List.mem_eraseDups]
  rw [listed]

/-- Before any of them fails, none is the first. -/
theorem failures_of_sound (h : ∀ p ∈ promises, ps.rejected p = false) :
    ps.failures promises = [] := by
  refine List.filter_eq_nil_iff.mpr fun p _ hf => ?_
  obtain ⟨hm, hr⟩ := Bool.and_eq_true_iff.mp hf
  rw [h p (List.contains_iff_mem.mp hm)] at hr
  cases hr

theorem rejected_settle_of_ne (hq : q ≠ p) (o : Outcome) :
    (ps.settle p o).rejected q = ps.rejected q :=
  rejected_congr (outcome?_settle_of_ne ps p q o hq)

/-- A promise that fails is the last to have failed so far. -/
theorem Recorded.failures_settle (r : ps.Recorded) (hp : ps.isPending p = true) (o : Outcome) :
    (ps.settle p o).failures promises = ps.failures promises ++
      if promises.contains p && (ps.settle p o).rejected p then [p] else [] := by
  unfold failures
  rw [settle_of_isPending hp, List.filter_append]
  congr 1
  · refine List.filter_congr fun q hq => ?_
    rw [rejected_settle_of_ne (r.ne_of_isPending hq hp)]
  · simp only [List.filter_cons, List.filter_nil]

theorem First.settle (r : ps.Recorded) {f : LoadFailure} (h : ps.First promises f)
    (p : PromiseId) (o : Outcome) : (ps.settle p o).First promises f := by
  cases hp : ps.isPending p with
  | false =>
    rw [settle_of_not_isPending hp]
    exact h
  | true =>
    obtain ⟨q, hq, ho⟩ := h
    refine ⟨q, ?_, outcome?_settle_of_some ho⟩
    rw [r.failures_settle hp, List.head?_append, hq]
    rfl

theorem First.create {f : LoadFailure} (h : ps.First promises f) :
    ps.create.1.First promises f := by
  obtain ⟨q, hq, ho⟩ := h
  exact ⟨q, by rw [failures_create]; exact hq, by rw [outcome?_create]; exact ho⟩

end Promises

/-! ## §2 The queue -/

/-- The promise of which a job tells the task. -/
def Job.news (t : TaskId) : Job → Option PromiseId
  | .childSettled i p => if i = t then some p else none
  | _ => none

theorem Job.news_eq_some {t : TaskId} {j : Job} {p : PromiseId} (h : j.news t = some p) :
    j = .childSettled t p := by
  unfold news at h
  split at h
  · split at h
    · rename_i heq
      cases h
      rw [heq]
    · cases h
  · cases h

namespace Loader

/-- The promises of which a task is about to be told. -/
def news (l : Loader) (t : TaskId) : List PromiseId :=
  l.ready.filterMap (Job.news t)

variable {asked : ChunkId → Prop} {l l' : Loader} {m : Move} {t : TaskId} {p : PromiseId}

theorem mem_news : p ∈ l.news t ↔ .childSettled t p ∈ l.ready := by
  unfold news
  rw [List.mem_filterMap]
  constructor
  · rintro ⟨j, hj, hn⟩
    rw [← Job.news_eq_some hn]
    exact hj
  · intro hm
    exact ⟨_, hm, by simp [Job.news]⟩

theorem news_append {jobs : List Job} (hr : l'.ready = l.ready ++ jobs) :
    l'.news t = l.news t ++ jobs.filterMap (Job.news t) := by
  unfold news
  rw [hr, List.filterMap_append]

/-- Jobs that tell no task anything. -/
theorem news_queued {jobs : List Job} (hr : l'.ready = l.ready ++ jobs)
    (hj : ∀ j ∈ jobs, j.news t = none) : l'.news t = l.news t := by
  rw [news_append hr, List.filterMap_eq_nil_iff.mpr hj, List.append_nil]

/-- Fetches and shutdowns have no news for tasks. -/
theorem news_of_ofFetches {j : Job} (hj : j.OfFetches) (t : TaskId) : j.news t = none := by
  cases j with
  | childSettled t' p => exact hj.elim
  | _ => rfl

/-- A promise that settles is news for a task once, if the task waits for it. -/
theorem news_tidings (l : Loader) (t : TaskId) (p : PromiseId) :
    (l.tidings p).filterMap (Job.news t) =
      if (l.tasks.get? t).any (Task.awaits p) = true then [p] else [] := by
  have rows : ∀ (t : Nat) (rows : List Task) (k : Nat),
      ((rows.zipIdx k).filterMap fun x : Task × TaskId =>
        (if x.1.awaits p then some (Job.childSettled x.2 p) else none).bind (Job.news t)) =
          if k ≤ t ∧ (rows[t - k]?).any (Task.awaits p) = true then [p] else [] := by
    intro t rows
    induction rows with
    | nil => simp
    | cons task rest ih =>
      intro k
      rw [List.zipIdx_cons, List.filterMap_cons, ih (k + 1)]
      by_cases hk : k = t
      · -- The row is the one of the task, and no later one is.
        subst hk
        cases ha : task.awaits p <;> simp [ha, Job.news]
      · have elsewhere : (if task.awaits p then some (Job.childSettled k p) else none).bind
            (Job.news t) = none := by
          cases task.awaits p <;> simp [Job.news, hk]
        dsimp only
        rw [elsewhere]
        by_cases hlt : k < t
        · have hsub : t - k = t - (k + 1) + 1 := by omega
          rw [hsub, List.getElem?_cons_succ]
          simp [Nat.le_of_lt hlt, Nat.succ_le_of_lt hlt]
        · rw [if_neg (by omega), if_neg (by omega)]
  unfold tidings
  rw [List.filterMap_filterMap]
  refine (rows t l.tasks.rows 0).trans ?_
  simp only [Nat.zero_le, true_and, Nat.sub_zero]
  rfl

end Loader

/-! ## §3 Tasks hear of failures in order -/

/--
What a task that waits for these promises has made of those that failed, or what news of them it has
yet to get: all of it, in order.
-/
def Task.Prompt (ps : Promises) (news promises : List PromiseId) : Task → Prop
  | .created _ _ => False
  | .waiting w => w.children = promises ∧
      (w.outcome = none → news.filter ps.rejected = ps.failures promises) ∧
        ∀ f, w.outcome = some (.failed f) → ps.First promises f
  | .over e => ∀ f, e = .fault f → ∃ failure, f = .load failure ∧ ps.First promises failure

namespace Loader

/-- A task that waits for these promises, or did, heeds the first of them that fails. -/
def Heeds (l : Loader) (t : TaskId) (promises : List PromiseId) : Prop :=
  ∃ task, l.tasks.get? t = some task ∧ task.Prompt l.promises (l.news t) promises

variable {asked : ChunkId → Prop} {l l' : Loader} {m : Move} {t t' : TaskId} {p : PromiseId}
  {promises : List PromiseId} {rest : List Job}

namespace Heeds

/-- Nothing happens that the task hears of. -/
theorem congr (i : l.Heeds t promises) (ht : ∀ task, l.tasks.get? t = some task →
      l'.tasks.get? t = some task) (hp : l'.promises = l.promises)
    (hn : l'.news t = l.news t) : l'.Heeds t promises := by
  obtain ⟨task, htask, h⟩ := i
  refine ⟨task, ht task htask, ?_⟩
  rw [hp, hn]
  exact h

theorem same (i : l.Heeds t promises) (ht : l'.tasks = l.tasks) (hp : l'.promises = l.promises)
    (hr : l'.ready = l.ready) : l'.Heeds t promises :=
  i.congr (fun _ h => by rw [ht]; exact h) hp (by unfold news; rw [hr])

/-- Jobs are queued that tell no task anything. -/
theorem queued (i : l.Heeds t promises) (ht : l'.tasks = l.tasks)
    (hp : l'.promises = l.promises) {jobs : List Job} (hr : l'.ready = l.ready ++ jobs)
    (hj : ∀ j ∈ jobs, j.news t = none) : l'.Heeds t promises :=
  i.congr (fun _ h => by rw [ht]; exact h) hp (news_queued hr hj)

theorem create (i : l.Heeds t promises) (ht : l'.tasks = l.tasks)
    (hp : l'.promises = l.promises.create.1) (hr : l'.ready = l.ready) :
    l'.Heeds t promises := by
  obtain ⟨task, htask, h⟩ := i
  have hn : l'.news t = l.news t := by
    unfold news
    rw [hr]
  refine ⟨task, by rw [ht]; exact htask, ?_⟩
  rw [hp, hn]
  cases task with
  | created chunks b => exact h.elim
  | waiting w =>
    obtain ⟨rfl, undecided, decided⟩ := h
    refine ⟨rfl, fun ho => ?_, fun f hf => (decided f hf).create⟩
    rw [Promises.failures_create, ← undecided ho]
    exact List.filter_congr fun q _ => Promises.rejected_congr (Promises.outcome?_create _ q)
  | «over» e =>
    intro f hf
    obtain ⟨failure, hfe, first⟩ := h f hf
    exact ⟨failure, hfe, first.create⟩

end Heeds

/-- A task whose wait is open has heard of none of its promises that are pending. -/
theorem Hears.mem_left_iff {w : Wait} (h : l.Hears t w) (ho : w.outcome = none)
    (hp : l.promises.isPending p = true) : p ∈ w.left ↔ p ∈ w.children := by
  refine ⟨h.sub p, fun hm => ?_⟩
  by_contra hl
  have hok := h.noted ho p hm hl
  rw [(Promises.isPending_iff.mp hp).2] at hok
  cases hok

/-- A promise settles, and the task is told of it after all that it was to be told before. -/
theorem Heeds.settlePromise (i : l.Heeds t promises) (a : Attentive l) (r : l.promises.Recorded)
    (p : PromiseId) (o : Outcome) : (l.settlePromise p o).Heeds t promises := by
  unfold Loader.settlePromise
  split
  · rename_i hpend
    obtain ⟨task, htask, h⟩ := i
    refine ⟨task, htask, ?_⟩
    have hnews : ({ l with
        promises := l.promises.settle p o
        ready := l.ready ++ l.tidings p } : Loader).news t =
        l.news t ++ if (l.tasks.get? t).any (Task.awaits p) = true then [p] else [] := by
      rw [news_append rfl, news_tidings]
    rw [hnews]
    cases task with
    | created chunks b => exact h.elim
    | waiting w =>
      obtain ⟨rfl, undecided, decided⟩ := h
      refine ⟨rfl, fun ho => ?_, fun f hf => (decided f hf).settle r p o⟩
      rw [r.failures_settle hpend, List.filter_append, ← undecided ho]
      congr 1
      · refine List.filter_congr fun q hq => ?_
        have hne : q ≠ p := by
          rintro rfl
          rw [(a.news t q (mem_news.mp hq)).1] at hpend
          cases hpend
        exact Promises.rejected_settle_of_ne hne o
      · have hears := (a.hears t w htask).mem_left_iff ho hpend
        have awaited : (l.tasks.get? t).any (Task.awaits p) = w.children.contains p := by
          rw [htask, Bool.eq_iff_iff]
          simp [Task.awaits, hears]
        rw [awaited]
        cases w.children.contains p <;> simp [List.filter_cons]
    | «over» e =>
      intro f hf
      obtain ⟨failure, hfe, first⟩ := h f hf
      exact ⟨failure, hfe, first.settle r p o⟩
  · exact i

theorem Change.recorded (h : Change asked l l') (r : l.promises.Recorded) :
    l'.promises.Recorded :=
  h.promises_keep (fun _ r => r.create) (fun _ p o r => r.settle p o) r

theorem Change.heeds (h : Change asked l l') (a : Attentive l) (r : l.promises.Recorded)
    (i : l.Heeds t promises) : l'.Heeds t promises := by
  cases h with
  | kept h he ho =>
    have made : l.newPromise.1.Heeds t promises := i.create rfl rfl rfl
    exact made.settlePromise (a.create rfl rfl rfl) r.create _ _
  | begun h ho => exact i.create rfl rfl rfl
  | @abandoned t h =>
    unfold abandon
    split
    · exact i.same rfl rfl rfl
    · exact i
  | @created resolve t url hc ht hw hr hf fetches asks =>
    refine i.queued rfl rfl rfl fun j hj => ?_
    obtain ⟨f, -, rfl⟩ := List.mem_map.mp hj
    rfl
  | @concluded c x ha hx e =>
    rw [detach_eq]
    exact i.same rfl rfl rfl
  | @settled t h e =>
    unfold settleEntry
    split
    · have finished : Attentive { l with cache := l.cache.finish t.chunk } := a.same rfl rfl rfl
      have heeds : Heeds { l with cache := l.cache.finish t.chunk } _ promises :=
        i.same rfl rfl rfl
      exact heeds.settlePromise finished r _ _
    · have dropped : Attentive ({ l with cache := l.cache.drop t.chunk }.note .cache .warning
          (l.failureOf t.chunk e).message) := a.same rfl rfl rfl
      have heeds : Heeds ({ l with cache := l.cache.drop t.chunk }.note .cache .warning
          (l.failureOf t.chunk e).message) _ promises := i.same rfl rfl rfl
      exact heeds.settlePromise dropped r _ _
  | @aborted t h =>
    have dropped : Attentive { l with cache := l.cache.drop t.chunk } := a.same rfl rfl rfl
    have heeds : Heeds { l with cache := l.cache.drop t.chunk } _ promises := i.same rfl rfl rfl
    exact heeds.settlePromise dropped r _ _
  | _ => exact i.same rfl rfl rfl

/-! ### Jobs -/

/-- Another task goes on. -/
theorem Heeds.other (i : l.Heeds t promises) {f : Task → Task} (ht : t' ≠ t)
    (hl : l'.tasks = l.tasks.update t' f) (hp : l'.promises = l.promises)
    (hn : l'.news t = l.news t) : l'.Heeds t promises := by
  refine i.congr (fun task htask => ?_) hp hn
  rw [hl, Table.get?_update, if_neg ht]
  exact htask

/-- Jobs that were behind the first one in the queue, and some that tell no task anything. -/
theorem news_rest {j : Job} {jobs : List Job} (hr : l.ready = j :: rest)
    (hj : j.news t = none) (hl : l'.ready = rest ++ jobs) (hn : ∀ j ∈ jobs, j.news t = none) :
    l'.news t = l.news t := by
  unfold news
  rw [hr, hl, List.filterMap_append, List.filterMap_cons, hj, List.filterMap_eq_nil_iff.mpr hn,
    List.append_nil]

theorem news_of_other (ht : t' ≠ t) (p : PromiseId) : (Job.childSettled t' p).news t = none :=
  if_neg ht

/-- Another task is told of a promise. -/
theorem Heeds.told_other (i : l.Heeds t promises) (ht : t' ≠ t)
    (hr : l.ready = .childSettled t' p :: rest) :
    ({ l with ready := rest }.childSettled t' p).Heeds t promises := by
  have gone : ({ l with ready := rest } : Loader).news t = l.news t :=
    news_rest hr (news_of_other ht p) (List.append_nil rest).symm nofun
  unfold childSettled
  split
  · split
    · exact i.other ht rfl rfl gone
    · dsimp only
      split
      · exact i.other ht rfl rfl
          (news_rest hr (news_of_other ht p) rfl (List.forall_mem_singleton.mpr rfl))
      · exact i.other ht rfl rfl gone
  · exact i.congr (fun _ h => h) rfl gone

/-- A wait is decided by a failure if that is what the task is told of. -/
theorem decided_eq_failed {w : Wait} {f : LoadFailure} :
    l.decided w p = some (.failed f) ↔ l.promises.outcome? p = some (.failed f) := by
  unfold decided
  split
  · rename_i ho
    simp [ho]
  · rename_i f' ho
    simp [ho]
  · rename_i hne
    refine ⟨fun h => ?_, fun h => absurd h (hne f)⟩
    split at h
    · split at h <;> cases h
    · cases h

/-- An undecided task is told of a promise: the news are one less, or its wait is decided by it. -/
theorem prompt_of_told {w : Wait} {later : List PromiseId} (ho : w.outcome = none)
    (h : Task.Prompt l.promises (p :: later) promises (.waiting w)) :
    Task.Prompt l.promises later promises
      (.waiting { w with left := w.left.erase p, outcome := l.decided w p }) := by
  obtain ⟨children, undecided, -⟩ := h
  have next := undecided ho
  rw [List.filter_cons] at next
  refine ⟨children, fun hn => ?_, fun f hf => ?_⟩
  · have sound : l.promises.rejected p = false := by
      rw [← Bool.not_eq_true]
      intro hrej
      obtain ⟨f, hf⟩ := Promises.rejected_iff.mp hrej
      have hd : l.decided w p = none := hn
      rw [decided_eq_failed.mpr hf] at hd
      cases hd
    rw [sound] at next
    exact next
  · have hfailed : l.promises.outcome? p = some (.failed f) := decided_eq_failed.mp hf
    rw [if_pos (Promises.rejected_iff.mpr ⟨f, hfailed⟩)] at next
    refine ⟨p, ?_, hfailed⟩
    rw [← next]
    rfl

/-- The task itself is told of a promise. -/
theorem Heeds.told_self (i : l.Heeds t promises) (hr : l.ready = .childSettled t p :: rest) :
    ({ l with ready := rest }.childSettled t p).Heeds t promises := by
  obtain ⟨task, htask, h⟩ := i
  have hnews : l.news t = p :: rest.filterMap (Job.news t) := by
    unfold news
    rw [hr, List.filterMap_cons]
    simp [Job.news]
  have htask' : ({ l with ready := rest } : Loader).tasks.get? t = some task := htask
  unfold childSettled
  rw [htask']
  cases task with
  | created chunks b => exact h.elim
  | «over» e => exact ⟨.over e, htask, h⟩
  | waiting w =>
    dsimp only
    cases ho : w.outcome with
    | some o =>
      refine ⟨_, Table.get?_update_self htask _, h.1, fun hn => ?_, h.2.2⟩
      rw [show w.outcome = none from hn] at ho
      cases ho
    | none =>
      rw [hnews] at h
      have told := prompt_of_told ho h
      dsimp only
      split
      · refine ⟨_, Table.get?_update_self htask _, ?_⟩
        have more : ∀ l' : Loader, l'.ready = rest ++ [.wakeTask t] →
            l'.news t = rest.filterMap (Job.news t) := by
          intro l' hl'
          unfold news
          rw [hl', List.filterMap_append]
          exact List.append_nil _
        rw [more _ rfl]
        exact told
      · exact ⟨_, Table.get?_update_self htask _, told⟩

/-- A task wakes up, and ends with what has decided its wait. -/
theorem Heeds.wakeTask (i : l.Heeds t promises) (hr : l.ready = .wakeTask t' :: rest) :
    ({ l with ready := rest }.wakeTask t').Heeds t promises := by
  have kept : ({ l with ready := rest } : Loader).Heeds t promises :=
    i.congr (fun _ h => h) rfl (news_rest hr rfl (List.append_nil rest).symm nofun)
  unfold Loader.wakeTask
  split
  · rename_i w hw
    split
    · rename_i o ho
      by_cases ht : t' = t
      · subst ht
        obtain ⟨task, htask, h⟩ := kept
        rw [htask] at hw
        cases hw
        refine ⟨_, Table.get?_update_self htask _, fun f hf => ?_⟩
        split at hf
        · cases hf
        · cases o with
          | failed failure =>
            cases hf
            exact ⟨failure, rfl, h.2.2 failure ho⟩
          | _ => cases hf
      · exact kept.other ht rfl rfl rfl
    · exact kept
  · exact kept

/-- A task that has made no promises its own heeds none. -/
theorem Heeds.ne_of_created (i : l.Heeds t promises) {chunks : List ChunkId} {b : Bool}
    (h : l.tasks.get? t' = some (.created chunks b)) : t' ≠ t := by
  rintro rfl
  obtain ⟨task, htask, prompt⟩ := i
  rw [h] at htask
  cases htask
  exact prompt.elim

/-- A task that begins to wait for promises none of which has failed. -/
theorem heeds_await (a : Attentive l) {chunks : List ChunkId} {b : Bool} {ps : List PromiseId}
    (ht : l.tasks.get? t = some (.created chunks b))
    (sound : ∀ p ∈ ps, l.promises.rejected p = false) : (l.await t ps).Heeds t ps.eraseDups := by
  have unheard : l.news t = [] := by
    refine List.eq_nil_iff_forall_not_mem.mpr fun p hp => ?_
    obtain ⟨-, -, task, htask, expects⟩ := a.news t p (mem_news.mp hp)
    rw [ht] at htask
    cases htask
    exact expects
  have known : ∀ p ∈ ps.eraseDups, l.promises.rejected p = false :=
    fun p hp => sound p (List.mem_eraseDups.mp hp)
  unfold await
  split
  · exact ⟨_, Table.get?_update_self ht _, fun f hf => nomatch hf⟩
  · refine ⟨_, Table.get?_update_self ht _, rfl, fun _ => ?_, nofun⟩
    rw [Promises.failures_of_sound known, news_append rfl, unheard, List.nil_append]
    refine List.filter_eq_nil_iff.mpr fun p hp hr => ?_
    obtain ⟨j, hj, hn⟩ := List.mem_filterMap.mp hp
    obtain ⟨q, hq, rfl⟩ := List.mem_map.mp hj
    cases Job.news_eq_some hn
    rw [known p (List.mem_filter.mp hq).1] at hr
    cases hr

theorem Act.recorded (h : Act asked l m l') (r : l.promises.Recorded) : l'.promises.Recorded := by
  rcases h.promises_cases with h | ⟨-, promises, hp⟩
  · exact h.recorded r
  · rw [hp]
    exact List.foldlRecOn promises _ r fun _ r p _ => r.settle p .cancelled

/-- Whatever a move does, a task heeds the first of its promises that fails. -/
theorem Act.heeds (h : Act asked l m l') (hm : ¬m.IsCancel) (a : Attentive l)
    (r : l.promises.Recorded) (i : l.Heeds t promises) : l'.Heeds t promises := by
  cases h with
  | work h => exact h.heeds a r i
  | deferred chunk e => exact i.queued rfl rfl rfl (List.forall_mem_singleton.mpr rfl)
  | attached h =>
    unfold attach
    split
    · exact i
    · split
      · split
        · exact i
        · exact i.queued rfl rfl rfl (List.forall_mem_singleton.mpr rfl)
      · exact i.same rfl rfl rfl
  | removed h =>
    unfold remove
    split
    · exact i
    · exact i.same rfl rfl rfl
  | @ensured chunks hc =>
    exact i.congr (fun task htask => Table.get?_add_of_some htask _) rfl
      (news_queued rfl (List.forall_mem_singleton.mpr rfl))
  | cancelled p => exact absurd trivial hm
  | taskCancelled t => exact absurd trivial hm
  | unloaded fetches closings hr hj hf =>
    exact i.queued rfl rfl rfl fun j hm => news_of_ofFetches (hj j hm) t
  | popped h hn hw =>
    refine i.congr (fun _ h => h) rfl (news_rest h ?_ (List.append_nil _).symm nofun)
    exact Option.eq_none_iff_forall_ne_some.mpr fun p hj => hn t p (Job.news_eq_some hj)
  | @told t' p rest h =>
    by_cases ht : t' = t
    · subst ht
      exact i.told_self h
    · exact i.told_other ht h
  | woken h => exact i.wakeTask h
  | dropped h => exact i.other (i.ne_of_created h) rfl rfl rfl
  | thwarted h f => exact i.other (i.ne_of_created h) rfl rfl rfl
  | @awaited t' chunks ps h hp =>
    have ht := i.ne_of_created h
    unfold await
    split
    · exact i.other ht rfl rfl rfl
    · refine i.other ht rfl rfl (news_queued rfl fun j hj => ?_)
      obtain ⟨p, -, rfl⟩ := List.mem_map.mp hj
      exact news_of_other ht p
  | _ => exact i.same rfl rfl rfl

end Loader

end SingleFlight
