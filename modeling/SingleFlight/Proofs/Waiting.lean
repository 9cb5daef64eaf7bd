/-
SingleFlight.Proofs.Waiting — tasks hear of every promise that they wait for.

A task learns through the queue of the event loop that a promise has settled,
so between the two the task's own record lags behind. `Attentive` says by how
much: whatever has settled, and is not yet noted, has its job in the queue. It
also says what a decided wait was decided by.

* `Promises.Onward` — promises are added and settled, and nothing else.
* `Loader.Attentive` — the invariant, with one law per kind of change
  (`Change.attentive`, `Act.attentive`).
* `Loader.Moved`, `Act.moved` — what one act can make of a task.
* `Task.Answers`, `Act.answers` — a task ends as its promises do.

Nothing here depends on who cancels what; `SingleFlight.Proofs.Cancelling` adds
that.
-/
import SingleFlight.Proofs.Acts

namespace SingleFlight

theorem nodup_eraseDups : ∀ xs : List PromiseId, xs.eraseDups.Nodup
  | [] => List.nodup_nil
  | x :: xs => by
    have ih := nodup_eraseDups (xs.filter fun y => !y == x)
    rw [List.eraseDups_cons, List.nodup_cons]
    refine ⟨fun hm => ?_, ih⟩
    rw [List.mem_eraseDups] at hm
    simpa using (List.mem_filter.mp hm).2
termination_by xs => xs.length
decreasing_by exact Nat.lt_succ_of_le (List.length_filter_le ..)

theorem exists_of_mem_forall₂ {α β : Type} {R : α → β → Prop} : ∀ {xs : List α} {ys : List β},
    List.Forall₂ R xs ys → ∀ {y : β}, y ∈ ys → ∃ x ∈ xs, R x y
  | _, _, .cons (a := x) h hs, y, hy => by
    rcases List.mem_cons.mp hy with rfl | hy
    · exact ⟨x, List.mem_cons_self .., h⟩
    · obtain ⟨x', hx', hr⟩ := exists_of_mem_forall₂ hs hy
      exact ⟨x', List.mem_cons_of_mem x hx', hr⟩

/-- An update of a row that is there. -/
theorem Table.get?_update_of_some {α : Type} {table : Table α} {i : Nat} {x : α} {f : α → α}
    (h : table.get? i = some x) (j : Nat) :
    (table.update i f).get? j = if i = j then some (f x) else table.get? j := by
  rw [Table.get?_update]
  split
  · rename_i heq
    subst heq
    rw [h]
    rfl
  · rfl

/-! ## §1 Promises go on -/

namespace Promises

/-- Promises are only added, and a settled one keeps its outcome. -/
structure Onward (ps ps' : Promises) : Prop where
  size : ps.table.size ≤ ps'.table.size
  keep : ∀ p o, ps.outcome? p = some o → ps'.outcome? p = some o

namespace Onward

variable {ps ps' ps'' : Promises}

theorem refl (ps : Promises) : Onward ps ps :=
  ⟨Nat.le_refl _, fun _ _ => id⟩

theorem trans (h : Onward ps ps') (h' : Onward ps' ps'') : Onward ps ps'' :=
  ⟨Nat.le_trans h.size h'.size, fun p o hp => h'.keep p o (h.keep p o hp)⟩

theorem create (ps : Promises) : Onward ps ps.create.1 :=
  ⟨by simp, fun p o h => by rw [outcome?_create]; exact h⟩

theorem settle (ps : Promises) (p : PromiseId) (o : Outcome) : Onward ps (ps.settle p o) :=
  ⟨by simp, fun _ _ h => outcome?_settle_of_some h⟩

theorem isPending_eq_false (h : Onward ps ps') {p : PromiseId} (hlt : p < ps.table.size)
    (hp : ps.isPending p = false) : ps'.isPending p = false := by
  cases ho : ps.outcome? p with
  | none =>
    rw [isPending_iff.mpr ⟨hlt, ho⟩] at hp
    cases hp
  | some o => exact isPending_of_outcome? (h.keep p o ho)

end Onward

/-- Cancels several promises. -/
def cancelAll (ps : Promises) (promises : List PromiseId) : Promises :=
  promises.foldl (fun ps p => ps.settle p .cancelled) ps

theorem onward_cancelAll (promises : List PromiseId) (ps : Promises) :
    ps.Onward (ps.cancelAll promises) := by
  induction promises generalizing ps with
  | nil => exact .refl ps
  | cons p rest ih => exact (Onward.settle ps p .cancelled).trans (ih _)

/-- Of several promises that are cancelled, those that are pending end as cancelled. -/
theorem outcome?_cancelAll {promises : List PromiseId} {ps : Promises} {p : PromiseId}
    (hm : p ∈ promises) (hp : ps.isPending p = true) :
    (ps.cancelAll promises).outcome? p = some .cancelled := by
  induction promises generalizing ps with
  | nil => cases hm
  | cons q rest ih =>
    by_cases hq : p = q
    · subst hq
      exact (onward_cancelAll rest _).keep p _ (outcome?_settle_of_isPending hp .cancelled)
    · refine ih ((List.mem_cons.mp hm).resolve_left hq) ?_
      rw [isPending_settle, hp, decide_eq_true hq]
      rfl

end Promises

/-! ## §2 What tasks know -/

/-- A task may be told of a promise: it waits for it among others, or is over. -/
def Task.Expects (p : PromiseId) : Task → Prop
  | .created _ _ => False
  | .waiting w => p ∈ w.children
  | .over _ => True

theorem Task.awaits_iff {p : PromiseId} {task : Task} :
    task.awaits p = true ↔ ∃ w, task = .waiting w ∧ p ∈ w.left := by
  cases task with
  | created chunks b => simp [Task.awaits]
  | waiting w => simp [Task.awaits]
  | _ => simp [Task.awaits]

/-- The outcome of a wait is that of its promises: kept if all are, else that of one of them. -/
def Wait.Warrants (w : Wait) (ps : Promises) : Outcome → Prop
  | .ok => ∀ p ∈ w.children, ps.outcome? p = some .ok
  | .cancelled => ∃ p ∈ w.children, ps.outcome? p = some .cancelled
  | .failed f => ∃ p ∈ w.children, ps.outcome? p = some (.failed f)

theorem Wait.Warrants.onward {w : Wait} {ps ps' : Promises} {o : Outcome} (h : w.Warrants ps o)
    (hk : ps.Onward ps') : w.Warrants ps' o := by
  cases o with
  | ok => exact fun p hp => hk.keep p _ (h p hp)
  | cancelled =>
    obtain ⟨p, hp, ho⟩ := h
    exact ⟨p, hp, hk.keep p _ ho⟩
  | failed f =>
    obtain ⟨p, hp, ho⟩ := h
    exact ⟨p, hp, hk.keep p _ ho⟩

namespace Loader

/-- A waiting task has noted what has settled, or is about to be told of it. -/
structure Hears (l : Loader) (t : TaskId) (w : Wait) : Prop where
  known : ∀ p ∈ w.children, p < l.promises.table.size
  nodup : w.left.Nodup
  sub : ∀ p ∈ w.left, p ∈ w.children
  left_ne : w.outcome = none → w.left ≠ []
  noted : w.outcome = none → ∀ p ∈ w.children, p ∉ w.left → l.promises.outcome? p = some .ok
  told : w.outcome = none → ∀ p ∈ w.left, l.promises.isPending p = false →
    .childSettled t p ∈ l.ready
  woken : ∀ o, w.outcome = some o → .wakeTask t ∈ l.ready
  warranted : ∀ o, w.outcome = some o → w.Warrants l.promises o
  asked : w.cancelAsked = true → ∃ p ∈ w.children, l.promises.outcome? p = some .cancelled

/-- All tasks hear what concerns them, and nobody is told of a promise that has not settled. -/
structure Attentive (l : Loader) : Prop where
  hears : ∀ t w, l.tasks.get? t = some (.waiting w) → l.Hears t w
  news : ∀ t p, .childSettled t p ∈ l.ready →
    l.promises.isPending p = false ∧ p < l.promises.table.size ∧
      ∃ task, l.tasks.get? t = some task ∧ task.Expects p

/-- The jobs that a promise's settlement queues go to the tasks that wait for it. -/
theorem mem_tidings {l : Loader} {p : PromiseId} {j : Job} :
    j ∈ l.tidings p ↔
      ∃ t task, l.tasks.get? t = some task ∧ task.awaits p = true ∧ j = .childSettled t p := by
  unfold tidings
  rw [List.mem_filterMap]
  constructor
  · rintro ⟨⟨task, t⟩, hm, hj⟩
    dsimp only at hj
    split at hj
    · rename_i ha
      exact ⟨t, task, List.mem_zipIdx_iff_getElem?.mp hm, ha, (Option.some.inj hj).symm⟩
    · cases hj
  · rintro ⟨t, task, ht, ha, rfl⟩
    exact ⟨(task, t), List.mem_zipIdx_iff_getElem?.mpr ht, if_pos ha⟩

variable {l l' : Loader}

/-- What a task knows stays right while promises go on and nothing is taken off the queue. -/
theorem Hears.later {t : TaskId} {w : Wait} (h : l.Hears t w)
    (hk : l.promises.Onward l'.promises)
    (hj : ∀ p, .childSettled t p ∈ l.ready → .childSettled t p ∈ l'.ready)
    (hw : .wakeTask t ∈ l.ready → .wakeTask t ∈ l'.ready)
    (hn : ∀ p ∈ w.left, l.promises.isPending p = true → l'.promises.isPending p = false →
      .childSettled t p ∈ l'.ready) : l'.Hears t w where
  known := fun p hp => Nat.lt_of_lt_of_le (h.known p hp) hk.size
  nodup := h.nodup
  sub := h.sub
  left_ne := h.left_ne
  noted := fun ho p hp hl => hk.keep p _ (h.noted ho p hp hl)
  told := by
    intro ho p hp hs
    cases hb : l.promises.isPending p with
    | true => exact hn p hp hb hs
    | false => exact hj p (h.told ho p hp hb)
  woken := fun o ho => hw (h.woken o ho)
  warranted := fun o ho => (h.warranted o ho).onward hk
  asked := by
    intro ha
    obtain ⟨p, hp, ho⟩ := h.asked ha
    exact ⟨p, hp, hk.keep p _ ho⟩

/-- What cancelling several promises does to a loader, the queue aside. -/
theorem cancelAll_promises (promises : List PromiseId) (l : Loader) :
    (promises.foldl (fun l p => (l.cancelPromise p).1) l).promises =
        l.promises.cancelAll promises ∧
      (promises.foldl (fun l p => (l.cancelPromise p).1) l).tasks = l.tasks := by
  induction promises generalizing l with
  | nil => exact ⟨rfl, rfl⟩
  | cons p rest ih =>
    obtain ⟨ready, h⟩ := l.settlePromise_eq p .cancelled
    obtain ⟨hp, ht⟩ := ih (l.cancelPromise p).1
    rw [List.foldl_cons, hp, ht]
    unfold cancelPromise
    rw [h]
    exact ⟨rfl, rfl⟩

namespace Attentive

/-- Nothing happens that tasks hear of. -/
theorem congr (h : Attentive l) (ht : l'.tasks = l.tasks) (hp : l'.promises = l.promises)
    (hc : ∀ t p, .childSettled t p ∈ l'.ready ↔ .childSettled t p ∈ l.ready)
    (hw : ∀ t, .wakeTask t ∈ l.ready → .wakeTask t ∈ l'.ready) : Attentive l' where
  hears := by
    intro t w htask
    rw [ht] at htask
    refine (h.hears t w htask).later (by rw [hp]; exact .refl _) (fun p => (hc t p).mpr) (hw t)
      fun p _ hb hs => ?_
    rw [hp, hb] at hs
    cases hs
  news := by
    intro t p hm
    rw [ht, hp]
    exact h.news t p ((hc t p).mp hm)

/-- The same, where the queue stays as it is. -/
theorem same (h : Attentive l) (ht : l'.tasks = l.tasks) (hp : l'.promises = l.promises)
    (hr : l'.ready = l.ready) : Attentive l' :=
  h.congr ht hp (fun _ _ => by rw [hr]) fun _ => by rw [hr]; exact id

/-- Jobs are queued that tell no task anything. -/
theorem queued (h : Attentive l) (ht : l'.tasks = l.tasks) (hp : l'.promises = l.promises)
    {jobs : List Job} (hr : l'.ready = l.ready ++ jobs)
    (hc : ∀ t p, .childSettled t p ∉ jobs) : Attentive l' := by
  refine h.congr ht hp (fun t p => ?_) fun t hm => ?_
  · rw [hr, List.mem_append]
    exact ⟨fun hm => hm.resolve_right (hc t p), .inl⟩
  · rw [hr]
    exact List.mem_append_left _ hm

/-- A promise is made. -/
theorem create (h : Attentive l) (ht : l'.tasks = l.tasks)
    (hp : l'.promises = l.promises.create.1) (hr : l'.ready = l.ready) : Attentive l' := by
  have onward : l.promises.Onward l'.promises := by rw [hp]; exact .create _
  refine ⟨fun t w htask => ?_, fun t p hm => ?_⟩
  · rw [ht] at htask
    have hw := h.hears t w htask
    refine hw.later onward (fun p => by rw [hr]; exact id) (by rw [hr]; exact id)
      fun p hl hb hs => ?_
    have hne : p ≠ l.promises.table.size := Nat.ne_of_lt (hw.known p (hw.sub p hl))
    rw [hp, Promises.isPending_create, hb, Bool.or_true] at hs
    cases hs
  · rw [hr] at hm
    obtain ⟨hb, hlt, task, htask, he⟩ := h.news t p hm
    exact ⟨onward.isPending_eq_false hlt hb, Nat.lt_of_lt_of_le hlt onward.size, task,
      by rw [ht]; exact htask, he⟩

/-- A promise settles, and those who wait for it are told. -/
theorem settlePromise (h : Attentive l) (p : PromiseId) (o : Outcome) :
    Attentive (l.settlePromise p o) := by
  unfold Loader.settlePromise
  split
  · rename_i hpend
    have onward := Promises.Onward.settle l.promises p o
    refine ⟨fun t w htask => ?_, fun t q hm => ?_⟩
    · refine (h.hears t w htask).later onward (fun q => List.mem_append_left _)
        (List.mem_append_left _) fun q hl hb hs => ?_
      have hq : q = p := by
        by_contra hne
        rw [Promises.isPending_settle, hb, decide_eq_true hne] at hs
        cases hs
      subst hq
      exact List.mem_append_right _
        (mem_tidings.mpr ⟨t, _, htask, Task.awaits_iff.mpr ⟨w, rfl, hl⟩, rfl⟩)
    · rcases List.mem_append.mp hm with hm | hm
      · obtain ⟨hb, hlt, task, htask, he⟩ := h.news t q hm
        exact ⟨onward.isPending_eq_false hlt hb, Nat.lt_of_lt_of_le hlt onward.size, task, htask,
          he⟩
      · obtain ⟨t', task, htask, ha, heq⟩ := mem_tidings.mp hm
        cases heq
        obtain ⟨w, rfl, hl⟩ := Task.awaits_iff.mp ha
        refine ⟨?_, ?_, _, htask, (h.hears t w htask).sub p hl⟩
        · rw [Promises.isPending_settle]
          simp
        · rw [Promises.size_settle]
          exact (Promises.isPending_iff.mp hpend).1
  · exact h

end Attentive

/-- Work changes no task; it tells them what has settled. -/
theorem Change.attentive {asked : ChunkId → Prop} (h : Change asked l l') (a : Attentive l) :
    Attentive l' := by
  cases h with
  | kept h he ho =>
    have made : Attentive l.newPromise.1 := a.create rfl rfl rfl
    exact made.settlePromise _ _
  | begun h ho => exact a.create rfl rfl rfl
  | @abandoned t h =>
    unfold abandon
    split
    · exact a.same rfl rfl rfl
    · exact a
  | @created resolve t url hc ht hw hr hf fetches asks => exact a.queued rfl rfl rfl (by simp)
  | @concluded a' x ha hx e =>
    rw [detach_eq]
    exact a.same rfl rfl rfl
  | @settled t h e =>
    unfold settleEntry
    split
    · have finished : Attentive { l with cache := l.cache.finish t.chunk } := a.same rfl rfl rfl
      exact finished.settlePromise _ _
    · have dropped : Attentive ({ l with cache := l.cache.drop t.chunk }.note .cache .warning
          (l.failureOf t.chunk e).message) := a.same rfl rfl rfl
      exact dropped.settlePromise _ _
  | @aborted t h =>
    have dropped : Attentive { l with cache := l.cache.drop t.chunk } := a.same rfl rfl rfl
    exact dropped.settlePromise _ _
  | _ => exact a.same rfl rfl rfl

/-! ## §3 What tasks do -/

namespace Attentive

/-- One task goes on, and no job of another one gets lost. -/
theorem update (a : Attentive l) {t : TaskId} {task task' : Task}
    (ht : l.tasks.get? t = some task) (hl : ∀ i, l'.tasks.get? i =
      if t = i then some task' else l.tasks.get? i)
    (hp : l'.promises = l.promises)
    (he : ∀ p, task.Expects p → task'.Expects p)
    (hw : ∀ w, task' = .waiting w → l'.Hears t w)
    (hj : ∀ i, i ≠ t → (∀ p, .childSettled i p ∈ l.ready → .childSettled i p ∈ l'.ready) ∧
      (.wakeTask i ∈ l.ready → .wakeTask i ∈ l'.ready))
    (hn : ∀ i p, .childSettled i p ∈ l'.ready → .childSettled i p ∈ l.ready ∨
      i = t ∧ task'.Expects p ∧ l.promises.isPending p = false ∧
        p < l.promises.table.size) : Attentive l' where
  hears := by
    intro i w hi
    rw [hl] at hi
    split at hi
    · rename_i heq
      subst heq
      exact hw w (Option.some.inj hi)
    · rename_i hne
      have hne' : i ≠ t := fun e => hne e.symm
      refine (a.hears i w hi).later (by rw [hp]; exact .refl _) (hj i hne').1 (hj i hne').2
        fun p _ hb hs => ?_
      rw [hp, hb] at hs
      cases hs
  news := by
    intro i p hm
    rw [hp, hl]
    rcases hn i p hm with hm | ⟨rfl, he', hb, hlt⟩
    · obtain ⟨hb, hlt, task₁, htask, hexp⟩ := a.news i p hm
      refine ⟨hb, hlt, ?_⟩
      split
      · rename_i heq
        subst heq
        rw [ht] at htask
        cases htask
        exact ⟨task', rfl, he p hexp⟩
      · exact ⟨task₁, htask, hexp⟩
    · exact ⟨hb, hlt, task', if_pos rfl, he'⟩

/-- A task is over. -/
theorem endTask (a : Attentive l) {t : TaskId} {task : Task} (ht : l.tasks.get? t = some task)
    (r : TaskEnd) : Attentive (l.endTask t r) :=
  a.update ht (Table.get?_update_of_some ht) rfl (fun _ _ => trivial) (fun _ h => nomatch h)
    (fun _ _ => ⟨fun _ => id, id⟩) fun _ _ => .inl

/-- A task that starts to wait is told at once of what has settled. -/
theorem await (a : Attentive l) {t : TaskId} {chunks : List ChunkId} {b : Bool}
    (ht : l.tasks.get? t = some (.created chunks b)) {ps : List PromiseId}
    (hps : ∀ p ∈ ps, p < l.promises.table.size) : Attentive (l.await t ps) := by
  unfold Loader.await
  split
  · exact a.endTask ht .ok
  · rename_i hne
    have known : ∀ p ∈ ps.eraseDups, p < l.promises.table.size := fun p hp =>
      hps p (List.mem_eraseDups.mp hp)
    refine a.update ht (Table.get?_update_of_some ht) rfl (fun _ h => h.elim) (fun w hw => ?_)
      (fun _ _ => ⟨fun _ => List.mem_append_left _, List.mem_append_left _⟩) fun i p hm => ?_
    · cases hw
      exact
        { known
          nodup := nodup_eraseDups ps
          sub := fun _ => id
          left_ne := fun _ hnil => hne hnil
          noted := fun _ p hp hl => absurd hp hl
          told := fun _ p hp hb => List.mem_append_right _
            (List.mem_map.mpr ⟨p, List.mem_filter.mpr ⟨hp, by simp [hb]⟩, rfl⟩)
          woken := fun _ h => nomatch h
          warranted := fun _ h => nomatch h
          asked := fun h => nomatch h }
    · rcases List.mem_append.mp hm with hm | hm
      · exact .inl hm
      · obtain ⟨q, hq, hj⟩ := List.mem_map.mp hm
        cases hj
        obtain ⟨hmem, hb⟩ := List.mem_filter.mp hq
        exact .inr ⟨rfl, hmem, by simpa using hb, known p hmem⟩

end Attentive

/-- What decides a wait warrants its outcome; otherwise the promise was kept, and others are left. -/
theorem Hears.decided {t : TaskId} {w : Wait} (h : l.Hears t w) (ho : w.outcome = none)
    {p : PromiseId} (hp : p ∈ w.children) (hs : l.promises.isPending p = false) :
    (∀ o, l.decided w p = some o → w.Warrants l.promises o) ∧
      (l.decided w p = none → l.promises.outcome? p = some .ok ∧ w.left.erase p ≠ []) := by
  obtain ⟨o, hout⟩ := Promises.exists_outcome? (h.known p hp) hs
  unfold Loader.decided
  rw [hout]
  cases o with
  | cancelled =>
    refine ⟨fun o heq => ?_, nofun⟩
    cases heq
    exact ⟨p, hp, hout⟩
  | failed f =>
    refine ⟨fun o heq => ?_, nofun⟩
    cases heq
    exact ⟨p, hp, hout⟩
  | ok =>
    dsimp only
    split
    · rename_i hempty
      refine ⟨fun o heq => ?_, nofun⟩
      cases heq
      split
      · rename_i hask
        exact h.asked hask
      · -- The promise was the last one that the task had to hear of.
        intro q hq
        by_cases hl : q ∈ w.left
        · have hqp : q = p := by
            by_contra hne
            have hmem := (List.mem_erase_of_ne hne).mpr hl
            rw [List.isEmpty_iff.mp hempty] at hmem
            cases hmem
          rw [hqp]
          exact hout
        · exact h.noted ho q hq hl
    · rename_i hempty
      exact ⟨nofun, fun _ => ⟨rfl, fun hnil => hempty (by rw [hnil]; rfl)⟩⟩

namespace Hears

variable {t : TaskId} {w : Wait} {p : PromiseId}

/-- A task whose wait is decided is told of one more promise. -/
theorem told_late (h : l.Hears t w) {o : Outcome} (ho : w.outcome = some o)
    (hp : l'.promises = l.promises)
    (kept : ∀ j, j ≠ .childSettled t p → j ∈ l.ready → j ∈ l'.ready) :
    l'.Hears t { w with left := w.left.erase p } where
  known := by rw [hp]; exact h.known
  nodup := h.nodup.erase p
  sub := fun q hq => h.sub q (List.mem_of_mem_erase hq)
  left_ne := fun hn => nomatch hn.symm.trans ho
  noted := fun hn => nomatch hn.symm.trans ho
  told := fun hn => nomatch hn.symm.trans ho
  woken := fun o' ho' => kept _ nofun (h.woken o' ho')
  warranted := by rw [hp]; exact h.warranted
  asked := by rw [hp]; exact h.asked

/-- A task is told of the promise that decides its wait. -/
theorem told_last (h : l.Hears t w) {o : Outcome} (ho : w.Warrants l.promises o)
    (hp : l'.promises = l.promises) (hw : .wakeTask t ∈ l'.ready) :
    l'.Hears t { w with left := w.left.erase p, outcome := some o } where
  known := by rw [hp]; exact h.known
  nodup := h.nodup.erase p
  sub := fun q hq => h.sub q (List.mem_of_mem_erase hq)
  left_ne := nofun
  noted := nofun
  told := nofun
  woken := fun _ _ => hw
  warranted := by
    intro o' ho'
    cases ho'
    rw [hp]
    cases o with
    | ok => exact ho
    | cancelled => exact ho
    | failed f => exact ho
  asked := by rw [hp]; exact h.asked

/-- A task is told of a promise that was kept, and others are left. -/
theorem told_kept (h : l.Hears t w) (ho : w.outcome = none)
    (hok : l.promises.outcome? p = some .ok) (hne : w.left.erase p ≠ [])
    (hp : l'.promises = l.promises)
    (kept : ∀ j, j ≠ .childSettled t p → j ∈ l.ready → j ∈ l'.ready) :
    l'.Hears t { w with left := w.left.erase p, outcome := none } where
  known := by rw [hp]; exact h.known
  nodup := h.nodup.erase p
  sub := fun q hq => h.sub q (List.mem_of_mem_erase hq)
  left_ne := fun _ => hne
  noted := by
    intro _ q hq hl
    rw [hp]
    by_cases hqp : q = p
    · rw [hqp]
      exact hok
    · exact h.noted ho q hq fun hm => hl ((List.mem_erase_of_ne hqp).mpr hm)
  told := by
    intro _ q hq hb
    rw [hp] at hb
    obtain ⟨hqp, hl⟩ := h.nodup.mem_erase_iff.mp hq
    exact kept _ (fun e => hqp (Job.childSettled.inj e).2) (h.told ho q hl hb)
  woken := nofun
  warranted := nofun
  asked := by rw [hp]; exact h.asked

end Hears

namespace Attentive

/-- A job is taken off the queue that no task waits for. -/
theorem pop (a : Attentive l) {j : Job} {rest : List Job} (hr : l.ready = j :: rest)
    (hj : ∀ t w, l.tasks.get? t = some (.waiting w) →
      (∀ p, j ≠ .childSettled t p) ∧ (j = .wakeTask t → w.outcome = none)) :
    Attentive { l with ready := rest } := by
  have kept : ∀ j', j' ≠ j → j' ∈ l.ready → j' ∈ rest := by
    intro j' hne hm
    rw [hr] at hm
    exact (List.mem_cons.mp hm).resolve_left hne
  refine ⟨fun t w ht => ?_, fun t p hm => a.news t p (by rw [hr]; exact List.mem_cons_of_mem _ hm)⟩
  obtain ⟨hc, hw⟩ := hj t w ht
  have h := a.hears t w ht
  exact
    { known := h.known
      nodup := h.nodup
      sub := h.sub
      left_ne := h.left_ne
      noted := h.noted
      told := fun ho p hp hb => kept _ (hc p).symm (h.told ho p hp hb)
      woken := fun o ho => by
        refine kept _ (fun e => ?_) (h.woken o ho)
        rw [hw e.symm] at ho
        cases ho
      warranted := h.warranted
      asked := h.asked }

/-- A task is told of a promise that has settled. -/
theorem childSettled (a : Attentive l) {t : TaskId} {p : PromiseId} {rest : List Job}
    (hr : l.ready = .childSettled t p :: rest) :
    Attentive ({ l with ready := rest }.childSettled t p) := by
  obtain ⟨hs, hlt, task, ht, hexp⟩ := a.news t p (by rw [hr]; exact List.mem_cons_self ..)
  have other : ∀ i, i ≠ t →
      Job.childSettled t p ≠ .wakeTask i ∧ ∀ q, Job.childSettled t p ≠ .childSettled i q :=
    fun i hi => ⟨nofun, fun q e => hi (Job.childSettled.inj e).1.symm⟩
  have kept : ∀ j, j ≠ .childSettled t p → j ∈ l.ready → j ∈ rest := by
    intro j hne hm
    rw [hr] at hm
    exact (List.mem_cons.mp hm).resolve_left hne
  have before : ∀ j, j ∈ rest → j ∈ l.ready := by
    intro j hm
    rw [hr]
    exact List.mem_cons_of_mem _ hm
  unfold Loader.childSettled
  cases task with
  | created chunks b => exact hexp.elim
  | «over» e =>
    have ht' : ({ l with ready := rest } : Loader).tasks.get? t = some (.over e) := ht
    rw [ht']
    refine a.pop hr fun i w hi => ⟨fun q => ?_, nofun⟩
    refine (other i fun heq => ?_).2 q
    rw [heq, ht] at hi
    cases hi
  | waiting w =>
    have h := a.hears t w ht
    have ht' : ({ l with ready := rest } : Loader).tasks.get? t = some (.waiting w) := ht
    rw [ht']
    dsimp only
    cases ho : w.outcome with
    | some o =>
      refine a.update ht (Table.get?_update_of_some ht) rfl (fun _ => id) (fun w' hw => ?_)
        (fun i hi => ⟨fun q => kept _ ((other i hi).2 q).symm, kept _ (other i hi).1.symm⟩)
        fun i q hm => .inl (before _ hm)
      cases hw
      exact h.told_late ho rfl kept
    | none =>
      obtain ⟨some_, none_⟩ := h.decided ho hexp hs
      have hd : ({ l with ready := rest } : Loader).decided w p = l.decided w p := rfl
      dsimp only
      rw [hd]
      cases hdec : l.decided w p with
      | some o =>
        refine a.update ht (Table.get?_update_of_some ht) rfl (fun _ => id) (fun w' hw => ?_)
          (fun i hi => ⟨fun q hm => List.mem_append_left _ (kept _ ((other i hi).2 q).symm hm),
            fun hm => List.mem_append_left _ (kept _ (other i hi).1.symm hm)⟩)
          fun i q hm => .inl (before _ ?_)
        · cases hw
          exact h.told_last (some_ o hdec) rfl
            (List.mem_append_right _ (List.mem_singleton.mpr rfl))
        · rcases List.mem_append.mp hm with hm | hm
          · exact hm
          · cases List.mem_singleton.mp hm
      | none =>
        obtain ⟨hok, hne⟩ := none_ hdec
        refine a.update ht (Table.get?_update_of_some ht) rfl (fun _ => id) (fun w' hw => ?_)
          (fun i hi => ⟨fun q => kept _ ((other i hi).2 q).symm, kept _ (other i hi).1.symm⟩)
          fun i q hm => .inl (before _ hm)
        cases hw
        exact h.told_kept ho hok hne rfl kept

/-- A task whose wait is decided ends. -/
theorem wakeTask (a : Attentive l) {t : TaskId} {rest : List Job}
    (hr : l.ready = .wakeTask t :: rest) : Attentive ({ l with ready := rest }.wakeTask t) := by
  have undecided : (∀ w, l.tasks.get? t = some (.waiting w) → w.outcome = none) →
      Attentive { l with ready := rest } := by
    refine fun hn => a.pop hr fun i w hi => ⟨fun p => nofun, fun e => hn w ?_⟩
    rw [Job.wakeTask.inj e]
    exact hi
  unfold Loader.wakeTask
  split
  · rename_i w ht
    split
    · rename_i o ho
      refine a.update ht (Table.get?_update_of_some ht) rfl (fun _ _ => trivial) (fun _ h => nomatch h)
        (fun i hi => ?_) fun i p hm => .inl (by rw [hr]; exact List.mem_cons_of_mem _ hm)
      rw [hr]
      refine ⟨fun p hm => (List.mem_cons.mp hm).resolve_left nofun,
        fun hm => (List.mem_cons.mp hm).resolve_left fun e => hi (Job.wakeTask.inj e)⟩
    · rename_i ho
      refine undecided fun w' hw => ?_
      rw [show l.tasks.get? t = some (.waiting w) from ht] at hw
      cases hw
      exact ho
  · rename_i hno
    exact undecided fun w hw => absurd hw (hno w)

theorem cancelAll (promises : List PromiseId) (a : Attentive l) :
    Attentive (promises.foldl (fun l p => (l.cancelPromise p).1) l) := by
  induction promises generalizing l with
  | nil => exact a
  | cons p rest ih => exact ih (a.settlePromise p .cancelled)

theorem cancelTask (a : Attentive l) (t : TaskId) : Attentive (l.cancelTask t).1 := by
  unfold Loader.cancelTask
  split
  · rename_i chunks b ht
    exact a.update ht (Table.get?_update_of_some ht) rfl (fun _ => id) (fun _ h => nomatch h)
      (fun _ _ => ⟨fun _ => id, id⟩) fun _ _ => .inl
  · rename_i w ht
    split
    · rename_i hany
      obtain ⟨p, hp, hpend⟩ := List.any_eq_true.mp (Bool.and_eq_true_iff.mp hany).2
      have all := a.cancelAll w.children
      have ht' : (w.children.foldl (fun l p => (l.cancelPromise p).1) l).tasks.get? t =
          some (.waiting w) := by
        rw [(cancelAll_promises ..).2]
        exact ht
      have cancelled : (w.children.foldl (fun l p => (l.cancelPromise p).1)
          l).promises.outcome? p = some .cancelled := by
        rw [(cancelAll_promises ..).1]
        exact Promises.outcome?_cancelAll hp hpend
      have h := all.hears t w ht'
      refine all.update ht' (Table.get?_update_of_some ht') rfl (fun _ => id) (fun w' hw => ?_)
        (fun _ _ => ⟨fun _ => id, id⟩) fun _ _ => .inl
      cases hw
      exact
        { known := h.known
          nodup := h.nodup
          sub := h.sub
          left_ne := h.left_ne
          noted := h.noted
          told := h.told
          woken := h.woken
          warranted := h.warranted
          asked := fun _ => ⟨p, hp, cancelled⟩ }
    · have h := a.hears t w ht
      refine a.update ht (Table.get?_update_of_some ht) rfl (fun _ => id) (fun w' hw => ?_)
        (fun _ _ => ⟨fun _ => id, id⟩) fun _ _ => .inl
      cases hw
      exact
        { known := h.known
          nodup := h.nodup
          sub := h.sub
          left_ne := h.left_ne
          noted := h.noted
          told := h.told
          woken := h.woken
          warranted := h.warranted
          asked := h.asked }
  · exact a

end Attentive

/-- Whatever a move does, tasks hear of it. -/
theorem Act.attentive {asked : ChunkId → Prop} {m : Move} (h : Act asked l m l')
    (w : Whole asked l) (a : Attentive l) : Attentive l' := by
  cases h with
  | work h => exact h.attentive a
  | deferred chunk e => exact a.queued rfl rfl rfl (by simp)
  | attached h =>
    unfold attach
    split
    · exact a
    · split
      · split
        · exact a
        · exact a.queued rfl rfl rfl (by simp)
      · exact a.same rfl rfl rfl
  | removed h =>
    unfold remove
    split
    · exact a
    · exact a.same rfl rfl rfl
  | @ensured chunks hc =>
    have tasks : ∀ i, (l.ensure chunks).1.tasks.get? i =
        if i = l.tasks.size then some (.created chunks false) else l.tasks.get? i :=
      fun i => Table.get?_add ..
    have grown : ∀ i task, l.tasks.get? i = some task →
        (l.ensure chunks).1.tasks.get? i = some task :=
      fun i task hi => Table.get?_add_of_some hi _
    refine ⟨fun t w ht => ?_, fun t p hm => ?_⟩
    · rw [tasks] at ht
      split at ht
      · cases ht
      · exact (a.hears t w ht).later (.refl _) (fun p => List.mem_append_left _)
          (List.mem_append_left _) fun p _ hb hs => nomatch hb.symm.trans hs
    · have hm' : .childSettled t p ∈ l.ready := by
        rcases List.mem_append.mp hm with hm | hm
        · exact hm
        · cases List.mem_singleton.mp hm
      obtain ⟨hb, hlt, task, ht, hexp⟩ := a.news t p hm'
      exact ⟨hb, hlt, task, grown t task ht, hexp⟩
  | cancelled p => exact a.settlePromise p .cancelled
  | taskCancelled t => exact a.cancelTask t
  | unloaded fetches closings hr hj =>
    exact a.queued rfl rfl rfl fun t p hm => hj _ hm
  | popped h hn hw => exact a.pop h fun t w ht => ⟨hn t, fun e => absurd e (hw t)⟩
  | told h => exact a.childSettled h
  | woken h => exact a.wakeTask h
  | dropped h => exact a.endTask h _
  | thwarted h f => exact a.endTask h _
  | @awaited t chunks ps h hp =>
    refine a.await h fun p hm => ?_
    obtain ⟨chunk, -, hh⟩ := exists_of_mem_forall₂ hp hm
    exact w.bounded chunk p hh
  | _ => exact a.same rfl rfl rfl

/-! ## §4 What becomes of a task -/

/-- The promises that requests for these chunks were answered with. -/
abbrev Handed (l : Loader) (chunks : List ChunkId) (ps : List PromiseId) : Prop :=
  List.Forall₂ (fun chunk p => (chunk, p) ∈ l.handed) chunks ps

/-- What one act of a move can make of one task. -/
inductive Moved (l : Loader) (m : Move) (t : TaskId) : Task → Task → Prop
  | still (task : Task) : Moved l m t task task
  | flagged (chunks : List ChunkId) (b : Bool) (hm : m = .invoke (.cancelTask t)) :
      Moved l m t (.created chunks b) (.created chunks true)
  | marked (w : Wait) (hm : m = .invoke (.cancelTask t)) :
      Moved l m t (.waiting w) (.waiting { w with mustCancel := true })
  | passed (w : Wait) : Moved l m t (.waiting w) (.waiting { w with cancelAsked := true })
  | heard (w : Wait) (left : List PromiseId) (outcome : Option Outcome) :
      Moved l m t (.waiting w) (.waiting { w with left, outcome })
  | woken {w : Wait} {o : Outcome} (ho : w.outcome = some o) :
      Moved l m t (.waiting w) (.over (if w.mustCancel then .cancelled else .ofOutcome o))
  | dropped (chunks : List ChunkId) : Moved l m t (.created chunks true) (.over .cancelled)
  | thwarted (chunks : List ChunkId) (f : Fault) :
      Moved l m t (.created chunks false) (.over (.fault f))
  | begun {chunks : List ChunkId} {ps : List PromiseId} (hp : l.Handed chunks ps) :
      Moved l m t (.created chunks false)
        (.waiting { children := ps.eraseDups, left := ps.eraseDups })
  | idle {chunks : List ChunkId} {ps : List PromiseId} (hp : l.Handed chunks ps)
      (hnil : ps.eraseDups = []) : Moved l m t (.created chunks false) (.over .ok)

theorem moved_of_update {m : Move} {t i : TaskId} {task task₁ task' : Task}
    (hi : l.tasks.get? i = some task) (ht : l.tasks.get? t = some task₁)
    (hl : ∀ j, l'.tasks.get? j = if t = j then some task' else l.tasks.get? j)
    (h : Moved l m t task₁ task') :
    ∃ task'', l'.tasks.get? i = some task'' ∧ Moved l m i task task'' := by
  rw [hl]
  split
  · rename_i heq
    subst heq
    rw [ht] at hi
    cases hi
    exact ⟨task', rfl, h⟩
  · exact ⟨task, hi, .still task⟩

theorem Act.moved {asked : ChunkId → Prop} {m : Move} (h : Act asked l m l') {i : TaskId}
    {task : Task} (hi : l.tasks.get? i = some task) :
    ∃ task', l'.tasks.get? i = some task' ∧ Moved l m i task task' := by
  have same : ∀ {l₁ : Loader}, l₁.tasks = l.tasks →
      ∃ task', l₁.tasks.get? i = some task' ∧ Moved l m i task task' :=
    fun heq => ⟨task, by rw [heq]; exact hi, .still task⟩
  cases h with
  | work h => exact same h.grows.tasks
  | attached h =>
    obtain ⟨_, _, _, h⟩ := l.outer_attach h
    rw [h]
    exact same rfl
  | removed h =>
    obtain ⟨_, _, _, h⟩ := l.outer_remove h
    rw [h]
    exact same rfl
  | ensured hc => exact ⟨task, Table.get?_add_of_some hi _, .still task⟩
  | cancelled p =>
    obtain ⟨ready, h⟩ := l.settlePromise_eq p .cancelled
    unfold cancelPromise
    rw [h]
    exact same rfl
  | taskCancelled t =>
    unfold cancelTask
    split
    · rename_i chunks b ht
      exact moved_of_update hi ht (Table.get?_update_of_some ht) (.flagged chunks b rfl)
    · rename_i w ht
      split
      · obtain ⟨-, htasks⟩ := cancelAll_promises w.children l
        refine moved_of_update hi ht (fun j => ?_) (.passed w)
        change ((w.children.foldl (fun l p => (l.cancelPromise p).1) l).tasks.update t _).get? j = _
        rw [htasks]
        exact Table.get?_update_of_some ht j
      · exact moved_of_update hi ht (Table.get?_update_of_some ht) (.marked w rfl)
    · exact same rfl
  | @told t p rest h =>
    unfold childSettled
    split
    · rename_i w ht
      split
      · exact moved_of_update hi ht (Table.get?_update_of_some ht)
          (.heard w (w.left.erase p) w.outcome)
      · dsimp only
        split
        · exact moved_of_update hi ht (Table.get?_update_of_some ht) (.heard w _ _)
        · exact moved_of_update hi ht (Table.get?_update_of_some ht) (.heard w _ _)
    · exact same rfl
  | @woken t rest h =>
    unfold wakeTask
    split
    · rename_i w ht
      split
      · rename_i o ho
        exact moved_of_update hi ht (Table.get?_update_of_some ht) (.woken ho)
      · exact same rfl
    · exact same rfl
  | @dropped t chunks h =>
    exact moved_of_update hi h (Table.get?_update_of_some h) (.dropped chunks)
  | @thwarted t chunks h f =>
    exact moved_of_update hi h (Table.get?_update_of_some h) (.thwarted chunks f)
  | @awaited t chunks ps h hp =>
    unfold await
    split
    · rename_i hnil
      exact moved_of_update hi h (Table.get?_update_of_some h) (.idle hp hnil)
    · exact moved_of_update hi h (Table.get?_update_of_some h) (.begun hp)
  | _ => exact same rfl

/-! ### Promises and answers only grow -/

theorem Change.onward {asked : ChunkId → Prop} (h : Change asked l l') :
    l.promises.Onward l'.promises :=
  h.promises_keep (fun _ on => on.trans (.create _)) (fun _ _ _ on => on.trans (.settle ..))
    (.refl _)

/-- An act that is more than a change takes no part in answers, and at most cancels promises. -/
theorem Act.promises_cases {asked : ChunkId → Prop} {m : Move} (h : Act asked l m l') :
    Change asked l l' ∨
      l'.handed = l.handed ∧ ∃ promises, l'.promises = l.promises.cancelAll promises := by
  have same : ∀ {l₁ : Loader}, l₁.promises = l.promises → l₁.handed = l.handed →
      Change asked l l₁ ∨
        l₁.handed = l.handed ∧ ∃ promises, l₁.promises = l.promises.cancelAll promises :=
    fun hp hh => .inr ⟨hh, [], hp⟩
  cases h with
  | work h => exact .inl h
  | attached h =>
    obtain ⟨_, _, _, h⟩ := l.outer_attach h
    rw [h]
    exact same rfl rfl
  | removed h =>
    obtain ⟨_, _, _, h⟩ := l.outer_remove h
    rw [h]
    exact same rfl rfl
  | cancelled p =>
    obtain ⟨ready, h⟩ := l.settlePromise_eq p .cancelled
    unfold cancelPromise
    rw [h]
    exact .inr ⟨rfl, [p], rfl⟩
  | taskCancelled t =>
    unfold cancelTask
    split
    · exact same rfl rfl
    · split
      · rename_i w _ _
        obtain ⟨ps, ready, h⟩ := l.cancelAll_eq w.children
        obtain ⟨hp, -⟩ := cancelAll_promises w.children l
        rw [h] at hp ⊢
        exact .inr ⟨rfl, w.children, hp⟩
      · exact same rfl rfl
    · exact same rfl rfl
  | @told t p rest h =>
    obtain ⟨tasks, ready, h⟩ := childSettled_eq { l with ready := rest } t p
    rw [h]
    exact same rfl rfl
  | @woken t rest h =>
    obtain ⟨tasks, h⟩ := wakeTask_eq { l with ready := rest } t
    rw [h]
    exact same rfl rfl
  | @awaited t chunks ps h hp =>
    obtain ⟨tasks, ready, h⟩ := l.await_eq t ps
    rw [h]
    exact same rfl rfl
  | _ => exact same rfl rfl

/-- No act takes an outcome from a promise, or an answer back. -/
theorem Act.onward {asked : ChunkId → Prop} {m : Move} (h : Act asked l m l') :
    l.promises.Onward l'.promises ∧ l.handed ⊆ l'.handed := by
  rcases h.promises_cases with h | ⟨hh, promises, hp⟩
  · exact ⟨h.onward, h.grows.handed⟩
  · rw [hp, hh]
    exact ⟨Promises.onward_cancelAll promises _, fun _ => id⟩

end Loader

/-! ### How tasks end -/

/--
A task that waits for these promises ends as they do: well if all of them are kept, with the failure
of one that failed, and as cancelled only if it was cancelled itself (`flagged`) or one of them was.
-/
def Task.Answers (ps : Promises) (promises : List PromiseId) (flagged : Prop) : Task → Prop
  | .created _ _ => False
  | .waiting w => w.children = promises ∧ (w.mustCancel = true → flagged)
  | .over .ok => ∀ p ∈ promises, ps.outcome? p = some .ok
  | .over .cancelled => flagged ∨ ∃ p ∈ promises, ps.outcome? p = some .cancelled
  | .over (.fault f) => ∃ failure, f = .load failure ∧
      ∃ p ∈ promises, ps.outcome? p = some (.failed failure)

/-- A task that asked for chunks, from its creation on. -/
inductive Task.Serves (l : Loader) (chunks : List ChunkId) (flagged : Prop) : Task → Prop
  | pending {b : Bool} (hb : b = true → flagged) : Serves l chunks flagged (.created chunks b)
  /-- Its requests were answered, and it waits for the answers, or has. -/
  | begun {ps : List PromiseId} {task : Task} (hp : l.Handed chunks ps)
      (ha : task.Answers l.promises ps.eraseDups flagged) : Serves l chunks flagged task
  | dropped (h : flagged) : Serves l chunks flagged (.over .cancelled)
  /-- One of its requests was refused. -/
  | refused (f : Fault) : Serves l chunks flagged (.over (.fault f))

namespace Task

variable {ps ps' : Promises} {promises : List PromiseId} {flagged flagged' : Prop} {task : Task}

theorem Answers.onward (h : task.Answers ps promises flagged) (hk : ps.Onward ps')
    (hf : flagged → flagged') : task.Answers ps' promises flagged' := by
  match task, h with
  | .waiting w, h => exact ⟨h.1, fun hm => hf (h.2 hm)⟩
  | .over .ok, h => exact fun p hp => hk.keep p _ (h p hp)
  | .over .cancelled, h =>
    rcases h with h | ⟨p, hp, ho⟩
    · exact .inl (hf h)
    · exact .inr ⟨p, hp, hk.keep p _ ho⟩
  | .over (.fault f), h =>
    obtain ⟨failure, rfl, p, hp, ho⟩ := h
    exact ⟨failure, rfl, p, hp, hk.keep p _ ho⟩

theorem Serves.onward {l l' : Loader} {chunks : List ChunkId} (h : task.Serves l chunks flagged)
    (hk : l.promises.Onward l'.promises) (hh : l.handed ⊆ l'.handed) (hf : flagged → flagged') :
    task.Serves l' chunks flagged' := by
  cases h with
  | pending hb => exact .pending fun h => hf (hb h)
  | begun hp ha => exact .begun (hp.imp fun _ _ hm => hh hm) (ha.onward hk hf)
  | dropped h => exact .dropped (hf h)
  | refused f => exact .refused f

end Task

namespace Loader

variable {l l' : Loader} {m : Move} {t : TaskId} {task task' : Task}

/-- A task that wakes up answers as its promises do. -/
theorem Hears.answers {w : Wait} (h : l.Hears t w) {o : Outcome} (ho : w.outcome = some o)
    {promises : List PromiseId} {flagged : Prop}
    (ha : Task.Answers l.promises promises flagged (.waiting w)) :
    Task.Answers l.promises promises flagged
      (.over (if w.mustCancel then .cancelled else .ofOutcome o)) := by
  obtain ⟨rfl, hm⟩ := ha
  have warranted := h.warranted o ho
  split
  · rename_i hc
    exact .inl (hm hc)
  · cases o with
    | ok => exact warranted
    | cancelled => exact .inr warranted
    | failed f => exact ⟨f, rfl, warranted⟩

theorem Moved.answers (h : Moved l m t task task')
    (hears : ∀ w, task = .waiting w → l.Hears t w) {promises : List PromiseId} {flagged : Prop}
    (hf : m = .invoke (.cancelTask t) → flagged)
    (ha : task.Answers l.promises promises flagged) :
    task'.Answers l.promises promises flagged := by
  cases h with
  | still => exact ha
  | flagged => exact ha.elim
  | marked w hm => exact ⟨ha.1, fun _ => hf hm⟩
  | passed w => exact ha
  | heard w left outcome => exact ha
  | woken ho => exact (hears _ rfl).answers ho ha
  | dropped => exact ha.elim
  | thwarted => exact ha.elim
  | begun => exact ha.elim
  | idle => exact ha.elim

theorem Moved.serves (h : Moved l m t task task')
    (hears : ∀ w, task = .waiting w → l.Hears t w) {chunks : List ChunkId} {flagged : Prop}
    (hf : m = .invoke (.cancelTask t) → flagged) (hs : task.Serves l chunks flagged) :
    task'.Serves l chunks flagged := by
  cases hs with
  | pending hb =>
    cases h with
    | still => exact .pending hb
    | flagged _ _ hm => exact .pending fun _ => hf hm
    | dropped => exact .dropped (hb rfl)
    | thwarted _ f => exact .refused f
    | begun hp => exact .begun hp ⟨rfl, nofun⟩
    | idle hp hnil => exact .begun hp fun p hm => by rw [hnil] at hm; cases hm
  | begun hp ha => exact .begun hp (h.answers hears hf ha)
  | dropped hd =>
    cases h
    exact .dropped hd
  | refused f =>
    cases h
    exact .refused f

/-- Whatever an act does, a task goes on to serve its chunks. -/
theorem Act.serves {asked : ChunkId → Prop} (h : Act asked l m l') (a : Attentive l)
    {chunks : List ChunkId} {flagged : Prop} (hf : m = .invoke (.cancelTask t) → flagged)
    (hs : ∃ task, l.tasks.get? t = some task ∧ task.Serves l chunks flagged) :
    ∃ task, l'.tasks.get? t = some task ∧ task.Serves l' chunks flagged := by
  obtain ⟨task, ht, hs⟩ := hs
  obtain ⟨task', ht', moved⟩ := h.moved ht
  have served := moved.serves (fun w hw => a.hears t w (hw ▸ ht)) hf hs
  exact ⟨task', ht', served.onward h.onward.1 h.onward.2 id⟩

theorem Act.answers {asked : ChunkId → Prop} (h : Act asked l m l') (a : Attentive l)
    {promises : List PromiseId} {flagged : Prop} (hf : m = .invoke (.cancelTask t) → flagged)
    (hs : ∃ task, l.tasks.get? t = some task ∧ task.Answers l.promises promises flagged) :
    ∃ task, l'.tasks.get? t = some task ∧ task.Answers l'.promises promises flagged := by
  obtain ⟨task, ht, hs⟩ := hs
  obtain ⟨task', ht', moved⟩ := h.moved ht
  have answered := moved.answers (fun w hw => a.hears t w (hw ▸ ht)) hf hs
  exact ⟨task', ht', answered.onward h.onward.1 id⟩

end Loader

end SingleFlight
