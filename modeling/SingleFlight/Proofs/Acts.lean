/-
SingleFlight.Proofs.Acts — what one move does to a whole loader.

`Loader.Change` lists what the work of a whole loader is made of. A move does a
little more: it invokes an operation, takes a job off the queue, lets a watchdog
fire. `Loader.Act` lists these things too, each with the move that does it.
Every move that code outside can make is made of them (`Run.Rested.acts`), so
a law about all uses of a whole loader is proved by going through the list once.
A law that more than one act keeps only together goes through the kinds of work
instead (`Run.Rested.step_keeps`); that a stack of work keeps what its pieces keep is
an induction of its own, in any loader (`Loader.signal_keeps`, `abortAll_keeps`,
`collect_keeps`, `drive_keeps`). What acts have to do with loads that wait, with
watchdogs and the clock is said once (`Act.timing`).

As in `SingleFlight.Proofs.Changes`, the sink may refuse any count.
-/
import SingleFlight.Proofs.Changes
import SingleFlight.Proofs.Coupling

namespace SingleFlight

/-- The chunks that a move asks for are among the given ones. -/
def Move.Asks (asked : ChunkId → Prop) : Move → Prop
  | .invoke (.request chunk) => asked chunk
  | .invoke (.ensure chunks) => ∀ chunk ∈ chunks, asked chunk
  | _ => True

/-- If no chunk is left out, a move may ask for what it likes. -/
theorem Move.asks_all (m : Move) : m.Asks fun _ => True := by
  unfold Asks
  split
  · trivial
  · exact fun _ _ => trivial
  · trivial

/-- The move assigns fields of a handle. -/
def Move.Assigns : Move → Prop
  | .invoke (.assign _ _ _ _) => True
  | _ => False

namespace Loader

/-! ## §1 Acts -/

/-- One thing that a move does to a whole loader. -/
inductive Act (asked : ChunkId → Prop) (l : Loader) : Move → Loader → Prop
  | work {m : Move} {l' : Loader} (h : Change asked l l') : Act asked l m l'
  | marked (chunk : ChunkId) {e : Entry} (he : e.state ≠ .inFlight) :
      Act asked l (.invoke (.mark chunk e)) (l.mark chunk e)
  | deferred (chunk : ChunkId) (e : LoadEvent) :
      Act asked l (.invoke (.reportLater chunk e)) (l.queue (.report chunk e))
  | closing : Act asked l (.invoke .close) { l with closed := true }
  /-- A handle is made that is not registered. -/
  | spare {m : Move} (handle : Handle) (hs : handle.onLoad = {} ∧ handle.onError = {}) :
      Act asked l m { l with handles := l.handles.add handle }
  | planted (handle : Handle) : Act asked l (.invoke (.plant handle)) (l.plant handle).1
  | attached (h : HandleId) : Act asked l (.invoke (.attach h)) (l.attach h).1
  | removed (h : HandleId) : Act asked l (.invoke (.remove h)) (l.remove h)
  /-- Fields of a handle are assigned, or what its fetch has brought is recorded. -/
  | assigned {m : Move} (h : HandleId) {f : Handle → Handle}
      (hf : ∀ x, (f x).url = x.url ∧ (f x).tag = x.tag)
      (hs : ¬m.Assigns → ∀ x,
        (f x).onLoad = x.onLoad ∧ (f x).onError = x.onError ∧ (f x).loading = x.loading) :
      Act asked l m (l.changeHandle h f)
  | ensured {chunks : List ChunkId} (hc : ∀ chunk ∈ chunks, asked chunk) :
      Act asked l (.invoke (.ensure chunks)) (l.ensure chunks).1
  | cancelled (p : PromiseId) : Act asked l (.invoke (.cancelPromise p)) (l.cancelPromise p).1
  | taskCancelled (t : TaskId) : Act asked l (.invoke (.cancelTask t)) (l.cancelTask t).1
  /-- Fetches and shutdowns move on; the client may be closed. -/
  | unloaded {m : Move} (fetches : Table Fetch) (closings : Table Closing) {registry : Registry}
      (hr : registry = l.registry ∨ registry = l.registry.shut) {jobs : List Job}
      (hj : ∀ j ∈ jobs, j.OfFetches) (hf : SameFetches l.fetches fetches) :
      Act asked l m { l with fetches, closings, registry, ready := l.ready ++ jobs }
  | prompted (url : String) (r : Option Reply) (prompts : Pairs String Reply) :
      Act asked l (.invoke (.prompt url r)) { l with prompts }
  /-- A job is taken off the queue that tells no task anything. -/
  | popped {j : Job} {rest : List Job} (h : l.ready = j :: rest)
      (hn : ∀ t p, j ≠ .childSettled t p) (hw : ∀ t, j ≠ .wakeTask t) :
      Act asked l .runJob { l with ready := rest }
  | told {t : TaskId} {p : PromiseId} {rest : List Job} (h : l.ready = .childSettled t p :: rest) :
      Act asked l .runJob ({ l with ready := rest }.childSettled t p)
  | woken {t : TaskId} {rest : List Job} (h : l.ready = .wakeTask t :: rest) :
      Act asked l .runJob ({ l with ready := rest }.wakeTask t)
  /-- A task starts that was cancelled before. -/
  | dropped {t : TaskId} {chunks : List ChunkId}
      (h : l.tasks.get? t = some (.created chunks true)) :
      Act asked l .runJob (l.endTask t .cancelled)
  /-- A request of a task failed. -/
  | thwarted {t : TaskId} {chunks : List ChunkId}
      (h : l.tasks.get? t = some (.created chunks false)) (f : Fault) :
      Act asked l .runJob (l.endTask t (.fault f))
  | awaited {t : TaskId} {chunks : List ChunkId} {ps : List PromiseId}
      (h : l.tasks.get? t = some (.created chunks false))
      (hp : List.Forall₂ (fun chunk p => (chunk, p) ∈ l.handed) chunks ps) :
      Act asked l .runJob (l.await t ps)
  | fired {target : Float} {w : Watchdog} (h : l.nextDue? target = some w) :
      Act asked l (.fire target) ({ l with now := w.due }.disarm w.attempt)
  | clocked (now : Float) : Act asked l (.setClock now) (l.setClock now)
  | reordered {active : List AttemptId} (h : active.Perm l.active) :
      Act asked l (.reorder active) { l with active }
  | replanned (resolve : ChunkId → Except Fault String) (hasAsset : ChunkId → Bool) :
      Act asked l (.replan resolve hasAsset) (l.replan resolve hasAsset)

/-- What a move does, one thing after the other. -/
abbrev Acts (asked : ChunkId → Prop) (m : Move) : Loader → Loader → Prop :=
  Relation.ReflTransGen fun l l' => Act asked l m l'

theorem Leads.acts {asked : ChunkId → Prop} {l l' : Loader} (h : Leads asked l l') (m : Move) :
    Acts asked m l l' :=
  Relation.ReflTransGen.mono (fun _ _ h => .work h) _ _ h

theorem Unloads.acts {asked : ChunkId → Prop} {l l' : Loader} (h : Unloads l l') (m : Move) :
    Acts asked m l l' := by
  obtain ⟨fetches, closings, registry, jobs, rfl, hr, hj, hf⟩ := h
  exact .single (.unloaded fetches closings hr hj hf)

/-! ### Tasks keep to themselves -/

/-- Cancellation stays among promises, tasks and the queue. -/
theorem cancelAll_eq (promises : List PromiseId) (l : Loader) :
    ∃ ps ready, promises.foldl (fun l p => (l.cancelPromise p).1) l =
      { l with promises := ps, ready } := by
  induction promises generalizing l with
  | nil => exact ⟨l.promises, l.ready, rfl⟩
  | cons p rest ih =>
    obtain ⟨ready, h⟩ := l.settlePromise_eq p .cancelled
    obtain ⟨ps, ready', h'⟩ := ih (l.cancelPromise p).1
    refine ⟨ps, ready', ?_⟩
    rw [List.foldl_cons, h']
    unfold cancelPromise
    rw [h]

theorem childSettled_eq (l : Loader) (t : TaskId) (p : PromiseId) :
    ∃ tasks ready, l.childSettled t p = { l with tasks, ready } := by
  unfold childSettled
  split
  · split
    · exact ⟨_, _, rfl⟩
    · dsimp only
      split
      · exact ⟨_, _, rfl⟩
      · exact ⟨_, _, rfl⟩
  · exact ⟨_, _, rfl⟩

theorem wakeTask_eq (l : Loader) (t : TaskId) : ∃ tasks, l.wakeTask t = { l with tasks } := by
  unfold wakeTask
  split
  · split
    · exact ⟨_, rfl⟩
    · exact ⟨_, rfl⟩
  · exact ⟨_, rfl⟩

theorem await_eq (l : Loader) (t : TaskId) (ps : List PromiseId) :
    ∃ tasks ready, l.await t ps = { l with tasks, ready } := by
  unfold await
  split
  · exact ⟨_, _, rfl⟩
  · exact ⟨_, _, rfl⟩

/-- Promises, tasks and the queue are all that changes. -/
def Inner (l l' : Loader) : Prop :=
  ∃ promises tasks ready, l' = { l with promises, tasks, ready }

theorem inner_cancelPromise (l : Loader) (p : PromiseId) : Inner l (l.cancelPromise p).1 := by
  obtain ⟨ready, h⟩ := l.settlePromise_eq p .cancelled
  exact ⟨_, _, ready, h⟩

theorem inner_cancelTask (l : Loader) (t : TaskId) : Inner l (l.cancelTask t).1 := by
  unfold cancelTask
  split
  · exact ⟨_, _, _, rfl⟩
  · split
    · rename_i w _ _
      obtain ⟨ps, ready, h⟩ := cancelAll_eq w.children l
      dsimp only
      rw [h]
      exact ⟨_, _, _, rfl⟩
    · exact ⟨_, _, _, rfl⟩
  · exact ⟨_, _, _, rfl⟩

theorem inner_childSettled (l : Loader) (rest : List Job) (t : TaskId) (p : PromiseId) :
    Inner l ({ l with ready := rest }.childSettled t p) := by
  obtain ⟨tasks, ready, h⟩ := childSettled_eq { l with ready := rest } t p
  exact ⟨_, tasks, ready, h⟩

theorem inner_wakeTask (l : Loader) (rest : List Job) (t : TaskId) :
    Inner l ({ l with ready := rest }.wakeTask t) := by
  obtain ⟨tasks, h⟩ := wakeTask_eq { l with ready := rest } t
  exact ⟨_, tasks, rest, h⟩

theorem inner_await (l : Loader) (t : TaskId) (ps : List PromiseId) : Inner l (l.await t ps) := by
  obtain ⟨tasks, ready, h⟩ := l.await_eq t ps
  exact ⟨_, tasks, ready, h⟩

/-- The registry, the fetches and the queue are all that changes. -/
def Outer (l l' : Loader) : Prop :=
  ∃ registry fetches ready, l' = { l with registry, fetches, ready }

theorem outer_attach (l : Loader) (h : HandleId) : Outer l (l.attach h).1 := by
  unfold attach
  split
  · exact ⟨_, _, _, rfl⟩
  · split
    · split
      · exact ⟨_, _, _, rfl⟩
      · exact ⟨_, _, _, rfl⟩
    · exact ⟨_, _, _, rfl⟩

theorem outer_remove (l : Loader) (h : HandleId) : Outer l (l.remove h) := by
  unfold remove
  split
  · exact ⟨_, _, _, rfl⟩
  · exact ⟨_, _, _, rfl⟩

namespace Whole

variable {asked : ChunkId → Prop} {l : Loader}

theorem queue (w : Whole asked l) (ready : List Job) : Whole asked { l with ready } :=
  w.congr rfl rfl rfl rfl rfl rfl

theorem settlePromise (w : Whole asked l) (p : PromiseId) (o : Outcome) :
    Whole asked (l.settlePromise p o) := by
  obtain ⟨ready, h⟩ := l.settlePromise_eq p o
  rw [h]
  exact (w.settle p o).congr rfl rfl rfl rfl rfl rfl

theorem cancelAll (promises : List PromiseId) (w : Whole asked l) :
    Whole asked (promises.foldl (fun l p => (l.cancelPromise p).1) l) := by
  induction promises generalizing l with
  | nil => exact w
  | cons p rest ih => exact ih (w.settlePromise p .cancelled)

/-- A task goes on to something that makes no new requests. -/
theorem task (w : Whole asked l) {t : TaskId} {f : Task → Task}
    (hf : ∀ task chunks b, f task = .created chunks b → ∃ b', task = .created chunks b') :
    Whole asked { l with tasks := l.tasks.update t f } := by
  refine { w with requested := ?_ }
  intro i chunks b hi
  rw [Table.get?_update] at hi
  split at hi
  · obtain ⟨task, htask, heq⟩ := Option.map_eq_some_iff.mp hi
    obtain ⟨b', rfl⟩ := hf task chunks b heq
    exact w.requested i chunks b' htask
  · exact w.requested i chunks b hi

theorem changeWait (w : Whole asked l) (t : TaskId) (f : Wait → Wait) :
    Whole asked (l.changeWait t f) := by
  refine w.task fun task chunks b h => ?_
  cases task with
  | created chunks' b' =>
    cases h
    exact ⟨b, rfl⟩
  | _ => cases h

theorem endTask (w : Whole asked l) (t : TaskId) (r : TaskEnd) : Whole asked (l.endTask t r) :=
  w.task fun _ _ _ h => nomatch h

theorem await (w : Whole asked l) (t : TaskId) (ps : List PromiseId) :
    Whole asked (l.await t ps) := by
  unfold Loader.await
  split
  · exact w.endTask t .ok
  · exact (w.task (f := fun _ => .waiting _) fun _ _ _ h => nomatch h).congr rfl rfl rfl rfl rfl rfl

theorem cancelTask (w : Whole asked l) (t : TaskId) : Whole asked (l.cancelTask t).1 := by
  unfold Loader.cancelTask
  split
  · rename_i chunks b ht
    refine { w with requested := ?_ }
    intro i chunks' b' hi
    rw [Table.get?_update] at hi
    split at hi
    · rename_i heq
      subst heq
      rw [ht] at hi
      cases hi
      exact w.requested t chunks b ht
    · exact w.requested i chunks' b' hi
  · split
    · exact (w.cancelAll _).changeWait t _
    · exact w.changeWait t _
  · exact w

theorem childSettled (w : Whole asked l) (t : TaskId) (p : PromiseId) :
    Whole asked (l.childSettled t p) := by
  unfold Loader.childSettled
  split
  · split
    · exact w.changeWait t _
    · dsimp only
      split
      · exact (w.changeWait t _).congr rfl rfl rfl rfl rfl rfl
      · exact w.changeWait t _
  · exact w

theorem wakeTask (w : Whole asked l) (t : TaskId) : Whole asked (l.wakeTask t) := by
  unfold Loader.wakeTask
  split
  · split
    · exact w.endTask t _
    · exact w
  · exact w

theorem replan (w : Whole asked l) (resolve : ChunkId → Except Fault String)
    (hasAsset : ChunkId → Bool) : Whole asked (l.replan resolve hasAsset) := by
  obtain ⟨resolve', hw⟩ := w.wired
  refine { w with wired := ⟨resolve, ?_⟩ }
  simp [Loader.replan, hw]

end Whole

/-- Every act keeps what holds of a whole loader. -/
theorem Act.whole {asked : ChunkId → Prop} {l l' : Loader} {m : Move} (h : Act asked l m l')
    (w : Whole asked l) : Whole asked l' := by
  cases h with
  | work h => exact h.whole w
  | marked chunk he =>
    exact w.entries (fun _ => Cache.ticketOf?_mark _ _ _ he) (w.single.mark chunk _)
  | attached h =>
    obtain ⟨_, _, _, h⟩ := l.outer_attach h
    rw [h]
    exact w.congr rfl rfl rfl rfl rfl rfl
  | removed h =>
    obtain ⟨_, _, _, h⟩ := l.outer_remove h
    rw [h]
    exact w.congr rfl rfl rfl rfl rfl rfl
  | @ensured chunks hc =>
    refine { w with requested := ?_ }
    intro t chunks' b ht
    change (l.tasks.add (.created chunks false)).get? t = _ at ht
    rw [Table.get?_add] at ht
    split at ht
    · cases ht
      exact hc
    · exact w.requested t chunks' b ht
  | cancelled p => exact w.settlePromise p .cancelled
  | taskCancelled t => exact w.cancelTask t
  | @told t p rest h => exact (w.queue rest).childSettled t p
  | @woken t rest h => exact (w.queue rest).wakeTask t
  | @dropped t chunks h => exact w.endTask t _
  | @thwarted t chunks h f => exact w.endTask t _
  | @awaited t chunks ps h hp => exact w.await t ps
  | replanned resolve hasAsset => exact w.replan resolve hasAsset
  | _ => exact w.congr rfl rfl rfl rfl rfl rfl

theorem Acts.whole {asked : ChunkId → Prop} {l l' : Loader} {m : Move} (h : Acts asked m l l')
    (w : Whole asked l) : Whole asked l' := by
  induction h with
  | refl => exact w
  | tail _ ha ih => exact ha.whole ih

/-- What every act of a move keeps, the move keeps. -/
theorem Acts.keeps {asked : ChunkId → Prop} {l l' : Loader} {m : Move} {I : Loader → Prop}
    (keeps : ∀ l l', Whole asked l → Act asked l m l' → I l → I l') (h : Acts asked m l l')
    (w : Whole asked l) (hI : I l) : I l' := by
  induction h with
  | refl => exact hI
  | tail hs ha ih => exact keeps _ _ (Acts.whole hs w) ha ih

/-! ### Acts and time -/

/-- No load begins to wait; some may have begun and ended at once, or may have ended. -/
structure Eases (l l' : Loader) : Prop where
  size : l.attempts.size ≤ l'.attempts.size
  active : ∀ a ∈ l'.active, a ∈ l.active
  watchdogs : ∀ w ∈ l'.watchdogs, w ∈ l.watchdogs

theorem Eases.of_eq {l l' : Loader} (hat : l'.attempts = l.attempts) (ha : l'.active = l.active)
    (hw : l'.watchdogs = l.watchdogs) : Eases l l' where
  size := Nat.le_of_eq (by rw [hat])
  active := by rw [ha]; exact fun _ => id
  watchdogs := by rw [hw]; exact fun _ => id

/-- A load begins to wait, and its watchdog is set. -/
structure Waits (l l' : Loader) : Prop where
  begun : ∃ x, l'.attempts = l.attempts.add x
  active : l'.active = l.active ++ [l.attempts.size]
  watchdogs : l'.watchdogs = l.watchdogs ++ [⟨l.attempts.size, l.now + l.plan.policy.timeout⟩]

/-- What an act has to do with time: the policy is for life, and the clock is moved from outside. -/
structure Timing (m : Move) (l l' : Loader) : Prop where
  policy : l'.plan.policy = l.plan.policy
  clock : (∀ target, m ≠ .fire target) → (∀ now, m ≠ .setClock now) → l'.now = l.now
  loads : Eases l l' ∨ Waits l l'

theorem Timing.of_eq {m : Move} {l l' : Loader} (hp : l'.plan.policy = l.plan.policy)
    (hn : l'.now = l.now) (hat : l'.attempts = l.attempts) (ha : l'.active = l.active)
    (hw : l'.watchdogs = l.watchdogs) : Timing m l l' :=
  ⟨hp, fun _ _ => hn, .inl (.of_eq hat ha hw)⟩

theorem Change.timing {asked : ChunkId → Prop} {l l' : Loader} (h : Change asked l l')
    (m : Move) : Timing m l l' := by
  cases h with
  | kept h he ho =>
    obtain ⟨ready, hs⟩ := l.newPromise.1.settlePromise_eq l.newPromise.2 .ok
    rw [hs]
    exact .of_eq rfl rfl rfl rfl rfl
  | @abandoned t h =>
    unfold abandon
    split
    · exact .of_eq rfl rfl rfl rfl rfl
    · exact .of_eq rfl rfl rfl rfl rfl
  | created => exact ⟨rfl, fun _ _ => rfl, .inr ⟨⟨_, rfl⟩, rfl, rfl⟩⟩
  | adopted => exact ⟨rfl, fun _ _ => rfl, .inr ⟨⟨_, rfl⟩, rfl, rfl⟩⟩
  | found =>
    refine ⟨rfl, fun _ _ => rfl, .inl ⟨?_, fun _ => List.mem_of_mem_filter, fun _ =>
      List.mem_of_mem_filter⟩⟩
    simp
  | @concluded a x ha hx e =>
    rw [detach_eq]
    refine ⟨rfl, fun _ _ => rfl, .inl ⟨?_, fun _ => List.mem_of_mem_filter, fun _ =>
      List.mem_of_mem_filter⟩⟩
    simp
  | @settled t h e =>
    obtain ⟨ready, log, hs⟩ := l.settleEntry_eq t e
    rw [hs]
    exact .of_eq rfl rfl rfl rfl rfl
  | @aborted t h =>
    obtain ⟨o, ready, hs⟩ := l.abortEntry_eq t
    rw [hs]
    exact .of_eq rfl rfl rfl rfl rfl
  | _ => exact .of_eq rfl rfl rfl rfl rfl

theorem Act.timing {asked : ChunkId → Prop} {l l' : Loader} {m : Move} (h : Act asked l m l') :
    Timing m l l' := by
  have inner : ∀ {l₁ : Loader}, Inner l l₁ → Timing m l l₁ := by
    rintro l₁ ⟨_, _, _, rfl⟩
    exact .of_eq rfl rfl rfl rfl rfl
  have outer : ∀ {l₁ : Loader}, Outer l l₁ → Timing m l l₁ := by
    rintro l₁ ⟨_, _, _, rfl⟩
    exact .of_eq rfl rfl rfl rfl rfl
  cases h with
  | work h => exact h.timing m
  | attached k => exact outer (l.outer_attach k)
  | removed k => exact outer (l.outer_remove k)
  | cancelled p => exact inner (l.inner_cancelPromise p)
  | taskCancelled t => exact inner (l.inner_cancelTask t)
  | @told t p rest h => exact inner (l.inner_childSettled rest t p)
  | @woken t rest h => exact inner (l.inner_wakeTask rest t)
  | @awaited t chunks ps h hp => exact inner (l.inner_await t ps)
  | @fired target w h =>
    exact ⟨rfl, fun hf _ => absurd rfl (hf target), .inl ⟨Nat.le_refl _, fun _ => id, fun _ =>
      List.mem_of_mem_filter⟩⟩
  | clocked now => exact ⟨rfl, fun _ hc => absurd rfl (hc now), .inl (.of_eq rfl rfl rfl)⟩
  | reordered h =>
    exact ⟨rfl, fun _ _ => rfl, .inl ⟨Nat.le_refl _, fun _ => h.mem_iff.mp, fun _ => id⟩⟩
  | _ => exact .of_eq rfl rfl rfl rfl rfl

/-! ## §2 Stacks of work -/

/-- Acts of a move, after which nothing is left to do, not even when a call returns. -/
def Works (asked : ChunkId → Prop) (m : Move) (l : Loader) (p : Loader × Progress) : Prop :=
  Acts asked m l p.1 ∧ ∀ call rest, p.2 = .calling call rest → rest = []

variable {asked : ChunkId → Prop} {m : Move} {l : Loader}

theorem Acts.works {l' : Loader} {p : Loader × Progress} (h : Acts asked m l l')
    (hw : Works asked m l' p) : Works asked m l p :=
  ⟨h.trans hw.1, hw.2⟩

theorem works_finished {l' : Loader} (h : Leads asked l l') : Works asked m l (l', .finished) :=
  ⟨h.acts m, fun _ _ hc => nomatch hc⟩

theorem works_raised {l' : Loader} {f : Fault} (h : Leads asked l l') :
    Works asked m l (l', .raised f) :=
  ⟨h.acts m, fun _ _ hc => nomatch hc⟩

theorem works_nil (l : Loader) : Works asked m l (l.drive []) :=
  works_finished .refl

theorem Unloads.works {l' : Loader} (h : Unloads l l') : Works asked m l (l'.drive []) :=
  ⟨h.acts m, fun _ _ hc => nomatch hc⟩

namespace Whole

theorem works_signal (w : Whole asked l) (s : Slot) (e : LoadEvent) :
    Works asked m l (l.drive [.signal s e]) := by
  obtain ⟨l', h, hs | ⟨f, hs⟩ | ⟨k, -, hs⟩⟩ := w.leads_signal e s.foreign s.waiting
  · simp only [drive, perform, hs]
    exact works_finished h
  · simp only [drive, perform, hs, unwind]
    exact works_raised h
  · simp only [drive, perform, hs]
    refine ⟨h.acts m, fun call rest hc => ?_⟩
    cases hc
    rfl

theorem works_abort (w : Whole asked l) (attempts : List AttemptId) :
    Works asked m l (l.drive [.abort attempts]) := by
  obtain ⟨l', h, hs | ⟨f, hs⟩⟩ := w.leads_abortAll attempts
  · simp only [drive, perform, hs]
    exact works_finished h
  · simp only [drive, perform, hs, unwind]
    exact works_raised h

theorem works_shut (w : Whole asked l) (attempts : List AttemptId) (k : ClosingId) :
    Works asked m l (l.drive [.abort attempts, .shut k]) := by
  obtain ⟨l', h, hs | ⟨f, hs⟩⟩ := w.leads_abortAll attempts
  · simp only [drive, perform, hs]
    have closed : Leads asked l l'.closeCache := h.trans (h.whole w).leads_closeCache
    exact ⟨(closed.acts m).trans ((Unloads.closeRegistry _ k).acts m), fun _ _ hc => by cases hc⟩
  · simp only [drive, perform, hs, unwind]
    exact ⟨(h.acts m).trans ((Unloads.setClosing _ k _).acts m), fun _ _ hc => by cases hc⟩

/-- A report goes to the load first; the cache settles the attempt itself if it is still there. -/
theorem works_report (w : Whole asked l) (chunk : ChunkId) (t : Ticket) (e : LoadEvent) :
    Works asked m l (l.drive [.consult chunk e, .settle t e]) := by
  obtain ⟨resolve, hw⟩ := w.wired
  have settle : ∀ {l' : Loader}, Leads asked l l' →
      Works asked m l (l'.drive [.settle t e]) := by
    intro l' h
    simp only [drive, perform]
    split
    · rename_i hh
      exact works_finished (h.tail (.settled hh e))
    · exact works_finished h
  cases ha : l.activeFor? chunk with
  | none =>
    have hd : l.drive [.consult chunk e, .settle t e] = l.drive [.settle t e] := by
      simp [drive, perform, consult, hw, ha]
    rw [hd]
    exact settle .refl
  | some a =>
    obtain ⟨l', h, hs | ⟨f, hs⟩⟩ := w.leads_settleLoad a e
    · have hd : l.drive [.consult chunk e, .settle t e] = l'.drive [.settle t e] := by
        simp [drive, perform, consult, hw, ha, hs]
      rw [hd]
      exact settle h
    · have hd : l.drive [.consult chunk e, .settle t e] = (l', .raised f) := by
        simp [drive, perform, consult, hw, ha, hs, unwind]
      rw [hd]
      exact works_raised h

theorem works_of_report (w : Whole asked l) (chunk : ChunkId) (e : LoadEvent) :
    Works asked m l ((l.report chunk e).1.drive (l.report chunk e).2) := by
  cases ht : l.cache.ticketOf? chunk with
  | none =>
    have hr : l.report chunk e = (l.noteIdle chunk e, []) := by simp [report, ht]
    rw [hr]
    exact works_finished (.single (.noted l.sink _))
  | some t =>
    have hr : l.report chunk e = (l, [.consult chunk e, .settle t e]) := by simp [report, ht]
    rw [hr]
    exact w.works_report chunk t e

theorem works_dispatch (w : Whole asked l) (h : HandleId) (type : String) :
    Works asked m l (l.drive (l.dispatch h type)) := by
  unfold dispatch
  split
  · exact w.works_signal _ _
  · exact works_nil l

theorem works_start (w : Whole asked l) {t : Ticket} (hc : asked t.chunk) (st : Starting l t) :
    Works asked m l (l.drive [.start t, .hand t.chunk t.promise]) := by
  obtain ⟨l', h, ⟨hs, ho⟩ | ⟨f, hs⟩⟩ := w.leads_start hc st
  · simp only [drive, perform, hs]
    exact works_finished (h.tail (.handed ho.due (h.grows.closed.trans st.opened)))
  · simp only [drive, perform, hs, unwind]
    exact works_raised h

/-! ### Jobs -/

/-- A task that starts asks for its chunks, and then waits or is over. -/
theorem works_startTask (w : Whole asked l) (t : TaskId) :
    Works asked .runJob l ((l.startTask t).1.drive (l.startTask t).2) := by
  unfold startTask
  split
  · rename_i chunks ht
    exact ⟨.single (.dropped ht), fun _ _ hc => by cases hc⟩
  · rename_i chunks ht
    obtain ⟨l', h, ⟨f, hs⟩ | ⟨ps, hs, hp⟩⟩ :=
      w.leads_collect t chunks [] (w.requested t chunks false ht)
    · have ht' : l'.tasks.get? t = some (.created chunks false) := by
        rw [h.grows.tasks]
        exact ht
      simp only [drive, perform, hs]
      exact ⟨(h.acts _).tail (.thwarted ht' f), fun _ _ hc => by cases hc⟩
    · have ht' : l'.tasks.get? t = some (.created chunks false) := by
        rw [h.grows.tasks]
        exact ht
      simp only [drive, perform, hs, List.nil_append]
      exact ⟨(h.acts _).tail (.awaited ht' hp), fun _ _ hc => by cases hc⟩
  · exact works_nil l

theorem works_finishFetch (w : Whole asked l) (h : HandleId) (type : String) :
    Works asked m l ((l.finishFetch h type).1.drive (l.finishFetch h type).2) := by
  unfold finishFetch
  split
  · exact w.works_signal _ _
  · exact works_nil l

/-- What a fetch has brought is recorded, and maybe logged, before its handle gives a signal. -/
theorem works_recorded (w : Whole asked l) (h h' : HandleId) (f : Download → Download)
    (log : List LogRecord) (type : String) :
    Works asked m l
      ((finishFetch { l.changeHandle h (·.record f) with log } h' type).1.drive
        (finishFetch { l.changeHandle h (·.record f) with log } h' type).2) := by
  have changed : Act asked l m (l.changeHandle h (·.record f)) :=
    .assigned h (fun _ => ⟨rfl, rfl⟩) fun _ _ => ⟨rfl, rfl, rfl⟩
  have recorded : Acts asked m l { l.changeHandle h (·.record f) with log } :=
    .tail (.single changed) (.work (.noted l.sink log))
  exact recorded.works ((recorded.whole w).works_finishFetch h' type)

theorem works_takeReply (w : Whole asked l) (h : HandleId) (url : String) (r : Reply) :
    Works asked m l ((l.takeReply h url r).1.drive (l.takeReply h url r).2) := by
  cases r with
  | response status content complaint =>
    simp only [takeReply]
    split
    · exact w.works_recorded h h _ l.log "load"
    · exact w.works_recorded h h _ _ "error"
  | failed message => exact w.works_recorded h h _ _ "error"
  | unsendable kind message => exact w.works_recorded h h _ _ "error"

theorem works_takeAnswer (w : Whole asked l) (f : FetchId) :
    Works asked m l ((l.takeAnswer f).1.drive (l.takeAnswer f).2) := by
  have ends : Acts asked m l (l.endFetch f) := (Unloads.endFetch l f).acts m
  unfold takeAnswer
  split
  · split
    · exact ends.works ((ends.whole w).works_takeReply _ _ _)
    · exact works_nil l
  · exact ends.works (works_nil _)
  · exact works_nil l

theorem works_ask (w : Whole asked l) (f : FetchId) :
    Works asked m l ((l.ask f).1.drive (l.ask f).2) := by
  have staged : ∀ stage, Acts asked m l (l.setStage f stage) := fun stage =>
    (Unloads.setStage l f stage).acts m
  unfold ask
  split
  · split
    · exact (staged _).works (((staged _).whole w).works_takeAnswer f)
    · exact (staged _).works (works_nil _)
  · exact (Unloads.endFetch l f).works
  · exact works_nil l

/-- A job is taken off the queue and done. -/
theorem works_runJob (w : Whole asked l) {j : Job} {rest : List Job} (h : l.ready = j :: rest) :
    Works asked .runJob l
      (({ l with ready := rest }.runJob j).1.drive ({ l with ready := rest }.runJob j).2) := by
  have wr : Whole asked { l with ready := rest } := w.queue rest
  have popped : (∀ t p, j ≠ .childSettled t p) → (∀ t, j ≠ .wakeTask t) →
      Acts asked .runJob l { l with ready := rest } := fun hn hw => .single (.popped h hn hw)
  cases j with
  | report chunk e => exact (popped nofun nofun).works (wr.works_of_report chunk e)
  | startTask t => exact (popped nofun nofun).works (wr.works_startTask t)
  | childSettled t p => exact ⟨.single (.told h), fun _ _ hc => nomatch hc⟩
  | wakeTask t => exact ⟨.single (.woken h), fun _ _ hc => nomatch hc⟩
  | ask f => exact (popped nofun nofun).works (wr.works_ask f)
  | answer f => exact (popped nofun nofun).works (wr.works_takeAnswer f)
  | forget f => exact (popped nofun nofun).works (works_nil _)
  | fetchEnded k f => exact (popped nofun nofun).works (Unloads.fetchEnded _ k f).works
  | wakeClosing k => exact (popped nofun nofun).works (Unloads.wakeClosing _ k).works

/-! ### Operations -/

/-- What the acts of an operation come to: they end with a refusal, or with work. -/
def Invoked (asked : ChunkId → Prop) (m : Move) (l : Loader) : Loader × Asked → Prop
  | (l', .error _) => Acts asked m l l'
  | (l', .ok (_, work)) => Works asked m l (l'.drive work)

theorem invoked_at_once {l' : Loader} {a : Answer} (h : Acts asked m l l') :
    Invoked asked m l (l', atOnce a) :=
  ⟨h, fun _ _ hc => nomatch hc⟩

theorem invoked_request (w : Whole asked l) {chunk : ChunkId} (hc : asked chunk) :
    Invoked asked m l (l.invoke (.request chunk)) := by
  rcases w.leads_request chunk with
    ⟨l', f, hr, h⟩ | ⟨l', p, hr, h, ho, how⟩ | ⟨l', t, hr, rfl, h, st⟩
  · simp only [invoke, hr]
    exact h.acts m
  · simp only [invoke, hr]
    exact invoked_at_once (Leads.acts (h.tail (.handed how.due ho)) m)
  · simp only [invoke, hr]
    exact (h.acts m).works ((h.whole w).works_start hc st)

theorem invoked (w : Whole asked l) {op : Operation} (hop : op.Outer)
    (ha : (Move.invoke op).Asks asked) : Invoked asked (.invoke op) l (l.invoke op) := by
  cases op with
  | request chunk => exact w.invoked_request ha
  | mark chunk e => exact invoked_at_once (.single (.marked chunk hop))
  | report chunk e => exact w.works_of_report chunk e
  | reportLater chunk e =>
    simp only [invoke]
    split
    · exact invoked_at_once (.single (.deferred chunk e))
    · exact .refl
  | redeem t e => exact hop.elim
  | closeCache => exact hop.elim
  | load chunk url done => exact hop.elim
  | settle chunk e =>
    simp only [invoke]
    split
    · exact works_nil l
    · exact w.works_signal _ e
  | closeLoads => exact w.works_abort l.active
  | closeRegistry =>
    exact invoked_at_once (((Unloads.newClosing l).trans (.closeRegistry _ _)).acts _)
  | close =>
    simp only [invoke]
    split
    · exact works_nil l
    · have closing : Acts asked (.invoke .close) l { l with closed := true } := .single .closing
      have begun : Acts asked (.invoke .close) l ({ l with closed := true }.newClosing.1) :=
        closing.trans ((Unloads.newClosing _).acts _)
      exact begun.works ((begun.whole w).works_shut l.active _)
  | cancelClosing k => exact invoked_at_once ((Unloads.cancelClosing l k).acts _)
  | clientClosed k problem => exact invoked_at_once ((Unloads.clientClosed l k problem).acts _)
  | plant handle => exact invoked_at_once (.single (.planted handle))
  | create url tag => exact invoked_at_once (.single (.spare _ ⟨rfl, rfl⟩))
  | createPlain url tag => exact invoked_at_once (.single (.spare _ ⟨rfl, rfl⟩))
  | attach h =>
    have attached : Acts asked (.invoke (.attach h)) l (l.attach h).1 := .single (.attached h)
    simp only [invoke]
    cases ha : l.attach h with
    | mk l' refusal =>
      rw [ha] at attached
      cases refusal with
      | none => exact invoked_at_once attached
      | some f => exact attached
  | remove h => exact invoked_at_once (.single (.removed h))
  | complete url type =>
    simp only [invoke]
    split
    · exact .refl
    · exact w.works_dispatch _ type
  | dispatch h type => exact w.works_dispatch h type
  | notify s e => exact w.works_signal s e
  | assign h onLoad onError loading =>
    exact invoked_at_once (.single (.assigned h (fun _ => ⟨rfl, rfl⟩) (absurd trivial ·)))
  | ensure chunks => exact invoked_at_once (.single (.ensured ha))
  | cancelPromise p => exact invoked_at_once (.single (.cancelled p))
  | cancelTask t => exact invoked_at_once (.single (.taskCancelled t))
  | respond url r => exact invoked_at_once ((Unloads.respond l url r).acts _)
  | prompt url r =>
    cases r with
    | none => exact invoked_at_once (.single (.prompted url none _))
    | some reply => exact invoked_at_once (.single (.prompted url (some reply) _))

end Whole

/-- A stack of one frame leaves the loader that the frame leaves. -/
theorem fst_drive_single (l : Loader) (frame : Frame) :
    (l.drive [frame]).1 = (l.perform frame).1 := by
  unfold drive
  cases h : l.perform frame with
  | mk l' flow => cases flow <;> simp [drive, unwind]

/-! ### What work keeps

A property of loaders that each piece of work keeps is kept by the work made of such pieces,
whether it gets through, stops at a call or fails. -/

section Keeps

variable {I : Loader → Prop} {l : Loader}

/-- What it keeps to end a load and to pass its outcome on, a signal keeps. -/
theorem signal_keeps {e : LoadEvent}
    (conclude : ∀ l a x, l.attempts.get? a = some x → x.settled = false → I l →
      I (l.conclude a x e).1)
    (redeem : ∀ l t, I l → I (l.redeem t e)) (foreign : Option CallbackId)
    (waiting : List AttemptId) (i : I l) : I (signal e foreign waiting l).1 := by
  induction waiting generalizing l with
  | nil => cases foreign <;> exact i
  | cons a rest ih =>
    cases ha : l.attempts.get? a with
    | none =>
      simp only [signal, ha]
      exact i
    | some x =>
      cases hx : x.settled with
      | true =>
        simp only [signal, ha, hx, if_true]
        exact i
      | false =>
        have concluded := conclude l a x ha hx i
        cases hcon : l.conclude a x e with
        | mk l₁ refusal =>
          rw [hcon] at concluded
          simp only [signal, ha, hx, hcon, Bool.false_eq_true, if_false]
          cases refusal with
          | some f => exact concluded
          | none =>
            cases x.done with
            | redeem t => exact ih (redeem l₁ t concluded)
            | call k => exact concluded

/-- What it keeps to abort one load, it keeps to abort them all. -/
theorem abortAll_keeps (abort : ∀ l a, I l → I (l.settleLoad a (l.endSignal a "abort")).1)
    (attempts : List AttemptId) (i : I l) : I (abortAll attempts l).1 := by
  induction attempts generalizing l with
  | nil => exact i
  | cons a rest ih =>
    have ended := abort l a i
    unfold abortAll
    cases hs : l.settleLoad a (l.endSignal a "abort") with
    | mk l₁ flow =>
      rw [hs] at ended
      cases flow with
      | through => exact ih ended
      | calls c left => exact ended
      | fails f => exact ended

/-- What a task keeps that asks for one chunk, it keeps to ask for them all. -/
theorem collect_keeps {task : TaskId} (request : ∀ l chunk, I l → I (l.request chunk).1)
    (start : ∀ l t, I l → I (l.start t).1) (hand : ∀ l chunk p, I l → I (l.hand chunk p))
    (await : ∀ l got, I l → I (l.await task got))
    (endTask : ∀ l f, I l → I (l.endTask task (.fault f))) (chunks : List ChunkId)
    (got : List PromiseId) (i : I l) : I (collect task got chunks l).1 := by
  induction chunks generalizing l got with
  | nil => exact await l got i
  | cons chunk rest ih =>
    have requested := request l chunk i
    unfold collect
    cases hr : l.request chunk with
    | mk l₁ answer =>
      rw [hr] at requested
      rcases answer with f | ⟨p, _ | t⟩
      · exact endTask l₁ f requested
      · exact ih _ (hand l₁ chunk p requested)
      · have started := start l₁ t requested
        dsimp only
        cases hs : l₁.start t with
        | mk l₂ flow =>
          rw [hs] at started
          cases flow with
          | through => exact ih _ (hand l₂ chunk p started)
          | calls c left => exact started
          | fails f => exact endTask l₂ f started

/-- An error drops attempts and ends shutdowns and a task; that is all that unwinding a stack does. -/
theorem unwind_keeps {P : Frame → Prop} (abandon : ∀ l t, I l → I (l.abandon t))
    (endTask : ∀ l t f, I l → I (l.endTask t (.fault f)))
    (endClosing : ∀ l k f, P (.shut k) → I l → I (l.setClosing k (.over (.fault f)))) (f : Fault)
    {frames : List Frame} (hf : ∀ f ∈ frames, P f) (i : I l) : I (unwind f frames l).1 := by
  induction frames generalizing l with
  | nil => exact i
  | cons frame rest ih =>
    have hrest : ∀ f ∈ rest, P f := fun f hm => hf f (List.mem_cons_of_mem frame hm)
    cases frame with
    | started t => exact ih hrest (abandon l t i)
    | collect t got left => exact endTask l t f i
    | shut k => exact ih hrest (endClosing l k f (hf _ List.mem_cons_self) i)
    | _ => exact ih hrest i

/-- What each frame of a stack keeps, and unwinding too, the stack keeps. -/
theorem drive_keeps {P : Frame → Prop} (perform : ∀ l frame, P frame → I l → I (l.perform frame).1)
    (abandon : ∀ l t, I l → I (l.abandon t))
    (endTask : ∀ l t f, I l → I (l.endTask t (.fault f)))
    (endClosing : ∀ l k f, P (.shut k) → I l → I (l.setClosing k (.over (.fault f))))
    {frames : List Frame} (hf : ∀ f ∈ frames, P f) (i : I l) : I (drive frames l).1 := by
  induction frames generalizing l with
  | nil => exact i
  | cons frame rest ih =>
    have performed := perform l frame (hf frame List.mem_cons_self) i
    have hrest : ∀ f ∈ rest, P f := fun f hm => hf f (List.mem_cons_of_mem frame hm)
    unfold drive
    cases hs : l.perform frame with
    | mk l₁ flow =>
      rw [hs] at performed
      cases flow with
      | through => exact ih hrest performed
      | calls c left => exact performed
      | fails f => exact unwind_keeps abandon endTask endClosing f hrest performed

end Keeps

/-- What an operation comes to, once the work that it leaves is done. -/
def Yields (P : Loader → Prop) : Loader × Asked → Prop
  | (l, .error _) => P l
  | (l, .ok (_, work)) => P (l.drive work).1

end Loader

/-! ## §3 Moves -/

namespace Run

open Loader (Whole Acts Works)

variable {asked : ChunkId → Prop} {m : Move} {r : Run}

/-- Between two moves a whole loader is whole, and no call under way has work waiting for it. -/
structure Rested (asked : ChunkId → Prop) (r : Run) : Prop where
  whole : Whole asked r.loader
  clear : ∀ s ∈ r.suspended, s.rest = []

namespace Rested

theorem acts_after (h : r.Rested asked) {p : Loader × Progress} (hp : Works asked m r.loader p)
    (answer : Option Answer) :
    Acts asked m r.loader (r.after answer p).loader ∧ Rested asked (r.after answer p) := by
  obtain ⟨l, progress⟩ := p
  obtain ⟨ha, hrest⟩ := hp
  have whole := ha.whole h.whole
  cases progress with
  | finished => exact ⟨ha, whole, h.clear⟩
  | raised f => exact ⟨ha, whole, h.clear⟩
  | calling call rest =>
    refine ⟨ha, whole, fun s hs => ?_⟩
    rcases List.mem_cons.mp hs with rfl | hs
    · exact hrest call rest rfl
    · exact h.clear s hs

/-- A call that returns or raises leaves the loader as it is. -/
theorem acts_back (h : r.Rested asked) {s : Suspension} {outer : List Suspension}
    (hs : r.suspended = s :: outer) :
    s.rest = [] ∧ Rested asked { r with suspended := outer } := by
  have all : ∀ s' ∈ s :: outer, s'.rest = [] := by
    rw [← hs]
    exact h.clear
  exact ⟨all s (List.mem_cons_self ..), h.whole, fun s' hs' => all s' (List.mem_cons_of_mem s hs')⟩

/-- Whatever code outside does to a whole loader comes to a series of acts. -/
theorem acts (h : r.Rested asked) (hm : m.Outer) (ha : m.Asks asked) :
    Acts asked m r.loader (r.step m).loader ∧ Rested asked (r.step m) := by
  cases m with
  | invoke op =>
    have hi := h.whole.invoked (show op.Outer from hm) ha
    cases hop : r.loader.invoke op with
    | mk l asks =>
      rw [hop] at hi
      cases asks with
      | error f =>
        simp only [step, hop]
        exact ⟨hi, Acts.whole hi h.whole, h.clear⟩
      | ok x =>
        simp only [step, hop]
        exact h.acts_after hi (some x.1)
  | returns =>
    cases hs : r.suspended with
    | nil =>
      simp only [step, hs]
      exact ⟨.refl, h⟩
    | cons s outer =>
      obtain ⟨hrest, h'⟩ := h.acts_back hs
      simp only [step, hs, hrest]
      exact h'.acts_after (Loader.works_nil _) _
  | raises f =>
    cases hs : r.suspended with
    | nil =>
      simp only [step, hs]
      exact ⟨.refl, h⟩
    | cons s outer =>
      obtain ⟨hrest, h'⟩ := h.acts_back hs
      simp only [step, hs, hrest, Loader.unwind]
      exact h'.acts_after (Loader.works_raised .refl) _
  | runJob =>
    cases hidle : r.idle with
    | false =>
      simp only [step, hidle]
      exact ⟨.refl, h⟩
    | true =>
      cases hready : r.loader.ready with
      | nil =>
        simp only [step, hidle, Loader.nextJob?, hready]
        exact ⟨.refl, h⟩
      | cons j rest =>
        simp only [step, hidle, Loader.nextJob?, hready]
        exact h.acts_after (h.whole.works_runJob hready) none
  | fire target =>
    cases hidle : r.idle with
    | false =>
      simp only [step, hidle]
      exact ⟨.refl, h⟩
    | true =>
      cases hdue : r.loader.nextDue? target with
      | none =>
        simp only [step, hidle, Loader.fireNext?, hdue, Option.map_none]
        exact ⟨.refl, h⟩
      | some w =>
        have fired : Acts asked (.fire target) r.loader
            ({ r.loader with now := w.due }.disarm w.attempt) := .single (.fired hdue)
        simp only [step, hidle, Loader.fireNext?, hdue, Option.map_some]
        exact h.acts_after (fired.works ((fired.whole h.whole).works_signal _ _)) none
  | setClock now =>
    simp only [step]
    split
    · have clocked : Acts asked (.setClock now) r.loader (r.loader.setClock now) :=
        .single (.clocked now)
      exact ⟨clocked, clocked.whole h.whole, h.clear⟩
    · exact ⟨.refl, h⟩
  | reorder active =>
    simp only [step]
    split
    · rename_i hp
      have reordered : Acts asked (.reorder active) r.loader { r.loader with active } :=
        .single (.reordered (List.isPerm_iff.mp hp))
      exact ⟨reordered, reordered.whole h.whole, h.clear⟩
    · exact ⟨.refl, h⟩
  | replan resolve hasAsset =>
    have replanned : Acts asked (.replan resolve hasAsset) r.loader
        (r.loader.replan resolve hasAsset) := .single (.replanned resolve hasAsset)
    exact ⟨replanned, replanned.whole h.whole, h.clear⟩

/--
What holds of the loader, and again after each kind of work that a move can start, holds after the
move. A call that returns or raises has no work left, so nothing is to be shown of it.
-/
theorem step_keeps {P : Loader → Prop} (h : r.Rested asked) (same : P r.loader)
    (invoked : ∀ op, m = .invoke op → Loader.Yields P (r.loader.invoke op))
    (ran : ∀ j rest, m = .runJob → r.idle = true → r.loader.ready = j :: rest →
      P (({ r.loader with ready := rest }.runJob j).1.drive
        ({ r.loader with ready := rest }.runJob j).2).1)
    (fired : ∀ target l work, m = .fire target → r.loader.fireNext? target = some (l, work) →
      P (l.drive work).1)
    (clocked : ∀ now, m = .setClock now → P (r.loader.setClock now))
    (reordered : ∀ active, m = .reorder active → active.Perm r.loader.active →
      P { r.loader with active })
    (replanned : ∀ resolve hasAsset, m = .replan resolve hasAsset →
      P (r.loader.replan resolve hasAsset)) : P (r.step m).loader := by
  have after : ∀ (r : Run) (answer : Option Answer) (p : Loader × Progress),
      P p.1 → P (r.after answer p).loader := by
    rintro r answer ⟨l, progress⟩ hp
    cases progress <;> exact hp
  cases m with
  | invoke op =>
    have hi := invoked op rfl
    cases hop : r.loader.invoke op with
    | mk l asks =>
      rw [hop] at hi
      cases asks with
      | error f =>
        simp only [step, hop]
        exact hi
      | ok x =>
        simp only [step, hop]
        exact after _ _ _ hi
  | returns =>
    cases hs : r.suspended with
    | nil =>
      simp only [step, hs]
      exact same
    | cons s outer =>
      simp only [step, hs, (h.acts_back hs).1]
      exact after _ _ _ same
  | raises f =>
    cases hs : r.suspended with
    | nil =>
      simp only [step, hs]
      exact same
    | cons s outer =>
      simp only [step, hs, (h.acts_back hs).1]
      exact after _ _ _ same
  | runJob =>
    cases hidle : r.idle with
    | false =>
      simp only [step, hidle]
      exact same
    | true =>
      cases hready : r.loader.ready with
      | nil =>
        simp only [step, hidle, Loader.nextJob?, hready]
        exact same
      | cons j rest =>
        simp only [step, hidle, Loader.nextJob?, hready]
        exact after _ _ _ (ran j rest rfl hidle hready)
  | fire target =>
    cases hidle : r.idle with
    | false =>
      simp only [step, hidle]
      exact same
    | true =>
      cases hfire : r.loader.fireNext? target with
      | none =>
        simp only [step, hidle, hfire]
        exact same
      | some x =>
        simp only [step, hidle, hfire]
        exact after _ _ _ (fired target x.1 x.2 rfl hfire)
  | setClock now =>
    simp only [step]
    split
    · exact clocked now rfl
    · exact same
  | reorder active =>
    simp only [step]
    split
    · rename_i hp
      exact reordered active rfl (List.isPerm_iff.mp hp)
    · exact same
  | replan resolve hasAsset => exact replanned resolve hasAsset rfl

/-- What every act of the allowed moves keeps holds wherever these moves lead. -/
theorem of_reachable {allowed : Run → Move → Prop} {I : Loader → Prop} {start : Run}
    (outer : ∀ r m, allowed r m → m.Outer ∧ m.Asks asked)
    (keeps : ∀ r m, allowed r m → ∀ l l', Whole asked l → Loader.Act asked l m l' → I l → I l')
    (h : start.Rested asked) (hI : I start.loader) (hr : Reachable allowed start r) :
    r.Rested asked ∧ I r.loader := by
  induction hr with
  | start => exact ⟨h, hI⟩
  | step _ hm ih =>
    obtain ⟨hrest, hi⟩ := ih
    obtain ⟨ha, hrest'⟩ := hrest.acts (outer _ _ hm).1 (outer _ _ hm).2
    exact ⟨hrest', ha.keeps (keeps _ _ hm) hrest.whole hi⟩

/-- A loader as it is opened has nothing in flight and no loads. -/
theorem opened (asked : ChunkId → Prop) (policy : Policy)
    (resolve : ChunkId → Except Fault String) (hasAsset : ChunkId → Bool)
    {installed : List (ChunkId × String)} {cache : Cache}
    (hc : Cache.seed installed = .ok cache) (registry : Registry) (sink : Metrics.Sink) :
    Rested asked { loader := .whole policy resolve hasAsset cache registry sink } := by
  obtain ⟨single, tickets, -⟩ := Cache.seed_spec hc
  exact
    { whole :=
        { wired := ⟨resolve, rfl⟩
          redeems := fun a x ha => by simp [Loader.whole, Table.get?] at ha
          requested := fun t chunks b ht => by simp [Loader.whole, Table.get?] at ht
          single
          made := fun chunk t ht => by simp [Loader.whole, tickets] at ht
          distinct := fun k k' t t' ht => by simp [Loader.whole, tickets] at ht
          bounded := fun chunk p hm => nomatch hm
          awaited := fun chunk p hm => nomatch hm }
      clear := fun s hs => nomatch hs }

end Rested

end Run

end SingleFlight
