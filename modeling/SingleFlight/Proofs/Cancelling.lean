/-
SingleFlight.Proofs.Cancelling — whom a cancellation reaches.

All who wait for an attempt hold the same promise, and nothing stands between
them: to cancel the promise, or a task that waits for it, is to cancel it for
all of them, and a later request is answered with the same promise again
(`Run.cancellation_not_isolated`). But that is all a cancellation does. The
attempt goes on, and a promise that nobody cancels ends as its attempt does.

* `Run.Cancels` — the moves that cancel a promise.
* `Loader.Course` — what becomes of promises in the course of any other move.
* `Run.cancellation_shared` — whom a cancellation reaches, what it leaves
  alone, and how everybody else ends.
-/
import SingleFlight.Proofs.Waiting

namespace SingleFlight

/-! ## §1 Moves that cancel -/

/-- Whether a promise was cancelled can be read off its outcome. -/
instance : (o : Option Outcome) → Decidable (o = some .cancelled)
  | some .cancelled => .isTrue rfl
  | some .ok => .isFalse nofun
  | some (.failed _) => .isFalse nofun
  | none => .isFalse nofun

/-- Whether a task ended as cancelled can be read off the task. -/
instance : (task : Option Task) → Decidable (task = some (.over .cancelled))
  | some (.over .cancelled) => .isTrue rfl
  | some (.over .ok) => .isFalse nofun
  | some (.over (.fault _)) => .isFalse nofun
  | some (.created _ _) => .isFalse nofun
  | some (.waiting _) => .isFalse nofun
  | none => .isFalse nofun

/-- To cancel something is what the move is for. -/
def Move.IsCancel : Move → Prop
  | .invoke (.cancelPromise _) => True
  | .invoke (.cancelTask _) => True
  | _ => False

/-- The move cancels the promise: by itself, or with a task whose wait for it is undecided. -/
def Run.Cancels (r : Run) (m : Move) (p : PromiseId) : Prop :=
  m = .invoke (.cancelPromise p) ∨
    ∃ t w, m = .invoke (.cancelTask t) ∧ r.loader.tasks.get? t = some (.waiting w) ∧
      w.outcome = none ∧ p ∈ w.children

namespace Loader

variable {asked : ChunkId → Prop} {l l' : Loader}

theorem outcomeOf_ne_cancelled (l : Loader) (chunk : ChunkId) (e : LoadEvent) :
    l.outcomeOf chunk e ≠ .cancelled := by
  unfold outcomeOf
  split
  · exact nofun
  · exact nofun

/-- An attempt that is aborted with the cache ends like one that its load aborts. -/
theorem abortEntry_eq_ended (l : Loader) (t : Ticket) :
    ∃ ready, l.abortEntry t =
      { l with
        cache := l.cache.drop t.chunk
        promises := l.promises.settle t.promise (l.outcomeOf t.chunk { type := "abort" })
        ready } := by
  obtain ⟨ready, h⟩ := settlePromise_eq { l with cache := l.cache.drop t.chunk } t.promise
    (.failed { chunk := t.chunk, cause := .aborted "abort", assetKind := l.plan.policy.assetKind })
  exact ⟨ready, h⟩

/-! ## §2 Promises in the course of a move -/

/-- The promise of a chunk ended with its attempt: its outcome is that of a signal. -/
structure Real (l : Loader) (chunk : ChunkId) (p : PromiseId) (o : Outcome) : Prop where
  signal : ∃ e, o = l.outcomeOf chunk e
  loaded : o = .ok → l.cache.find? chunk = some .loaded
  passed : ∀ t, l.cache.ticketOf? chunk = some t → t.promise ≠ p

/-- What becomes of promises and attempts in a move that starts at `l₀` and cancels nothing. -/
structure Course (l₀ l : Loader) : Prop where
  policy : l.plan.policy = l₀.plan.policy
  onward : l₀.promises.Onward l.promises
  answered : l₀.handed ⊆ l.handed
  cancelled : ∀ p, l.promises.outcome? p = some .cancelled →
    l₀.promises.outcome? p = some .cancelled
  tickets : ∀ chunk t, l.cache.ticketOf? chunk = some t → t.promise < l₀.promises.table.size →
    l₀.cache.ticketOf? chunk = some t
  handed : ∀ chunk p, (chunk, p) ∈ l.handed → (chunk, p) ∈ l₀.handed ∨
    (∃ t, l₀.cache.ticketOf? chunk = some t ∧ t.promise = p) ∨
      l.promises.outcome? p ≠ some .cancelled
  real : ∀ chunk p o, (chunk, p) ∈ l₀.handed → l₀.promises.isPending p = true →
    l.promises.outcome? p = some o → l.Real chunk p o

namespace Course

variable {l₀ : Loader}

theorem refl (l : Loader) : Course l l where
  policy := rfl
  onward := .refl _
  answered := fun _ => id
  cancelled := fun _ => id
  tickets := fun _ _ h _ => h
  handed := fun _ _ => .inl
  real := by
    intro chunk p o _ hp ho
    rw [(Promises.isPending_iff.mp hp).2] at ho
    cases ho

theorem outcomeOf_congr (hp : l'.plan.policy = l.plan.policy) (chunk : ChunkId) (e : LoadEvent) :
    l'.outcomeOf chunk e = l.outcomeOf chunk e := by
  unfold outcomeOf failureOf
  rw [hp]

/-- Attempts may be dropped, and no loaded chunk is lost. -/
theorem entries (c : Course l₀ l) (hpol : l'.plan.policy = l.plan.policy)
    (hp : l'.promises = l.promises) (hh : l'.handed = l.handed)
    (tickets : ∀ chunk t, l'.cache.ticketOf? chunk = some t → l.cache.ticketOf? chunk = some t)
    (loaded : ∀ chunk, l.cache.find? chunk = some .loaded →
      l'.cache.find? chunk = some .loaded) : Course l₀ l' where
  policy := hpol.trans c.policy
  onward := by rw [hp]; exact c.onward
  answered := by rw [hh]; exact c.answered
  cancelled := by rw [hp]; exact c.cancelled
  tickets := fun chunk t ht => c.tickets chunk t (tickets chunk t ht)
  handed := by rw [hh, hp]; exact c.handed
  real := by
    intro chunk p o hm hpend ho
    rw [hp] at ho
    obtain ⟨⟨e, he⟩, hl, hover⟩ := c.real chunk p o hm hpend ho
    exact ⟨⟨e, he.trans (outcomeOf_congr hpol chunk e).symm⟩, fun hok => loaded chunk (hl hok),
      fun t ht => hover t (tickets chunk t ht)⟩

/-- The same, where the entries stay as they are. -/
theorem congr (c : Course l₀ l) (hpol : l'.plan.policy = l.plan.policy)
    (hp : l'.promises = l.promises) (hh : l'.handed = l.handed) (hc : l'.cache = l.cache) :
    Course l₀ l' :=
  c.entries hpol hp hh (fun _ _ h => by rw [← hc]; exact h) fun _ h => by rw [hc]; exact h

/-- A new promise is made, and maybe kept at once; new attempts wait with it. -/
theorem create (c : Course l₀ l) {promises : Promises} {cache : Cache}
    (onward : l.promises.Onward promises)
    (old : ∀ p o, promises.outcome? p = some o → p ≠ l.promises.table.size →
      l.promises.outcome? p = some o)
    (new : promises.outcome? l.promises.table.size ≠ some .cancelled)
    (tickets : ∀ chunk t, cache.ticketOf? chunk = some t →
      l.cache.ticketOf? chunk = some t ∨ t.promise = l.promises.table.size)
    (loaded : ∀ chunk, l.cache.find? chunk = some .loaded → cache.find? chunk = some .loaded) :
    Course l₀ { l with promises, cache } where
  policy := c.policy
  onward := c.onward.trans onward
  answered := c.answered
  cancelled := by
    intro p ho
    by_cases hp : p = l.promises.table.size
    · subst hp
      exact absurd ho new
    · exact c.cancelled p (old p _ ho hp)
  tickets := by
    intro chunk t ht hlt
    rcases tickets chunk t ht with ht | hnew
    · exact c.tickets chunk t ht hlt
    · rw [hnew] at hlt
      exact absurd c.onward.size (Nat.not_le_of_lt hlt)
  handed := by
    intro chunk p hm
    rcases c.handed chunk p hm with h | h | h
    · exact .inl h
    · exact .inr (.inl h)
    · refine .inr (.inr fun ho => ?_)
      by_cases hp : p = l.promises.table.size
      · subst hp
        exact new ho
      · exact h (old p _ ho hp)
  real := by
    intro chunk p o hm hpend ho
    have hlt := (Promises.isPending_iff.mp hpend).1
    have hp : p ≠ l.promises.table.size := Nat.ne_of_lt (Nat.lt_of_lt_of_le hlt c.onward.size)
    obtain ⟨he, hl, hover⟩ := c.real chunk p o hm hpend (old p o ho hp)
    refine ⟨he, fun hok => loaded chunk (hl hok), fun t ht => ?_⟩
    rcases tickets chunk t ht with ht | hnew
    · exact hover t ht
    · rw [hnew]
      exact hp.symm

/-- An attempt in flight ends by a signal. -/
theorem ended (c : Course l₀ l) (w : Whole asked l) {t : Ticket}
    (h : l.cache.honours t = true) (e : LoadEvent) :
    Course l₀
      { l with
        cache := if e.isLoad then l.cache.finish t.chunk else l.cache.drop t.chunk
        promises := l.promises.settle t.promise (l.outcomeOf t.chunk e) } := by
  obtain ⟨entry, hentry, hprom⟩ := Cache.honours_iff.mp h
  have ticket : l.cache.ticketOf? t.chunk = some ⟨t.chunk, entry.promise, entry.attempt⟩ :=
    Cache.ticketOf?_eq_some.mpr ⟨entry, hentry, rfl⟩
  have tickets : ∀ chunk t', (if e.isLoad then l.cache.finish t.chunk
      else l.cache.drop t.chunk).ticketOf? chunk = some t' →
        chunk ≠ t.chunk ∧ l.cache.ticketOf? chunk = some t' := by
    intro chunk t' ht'
    rw [Cache.ticketOf?_ended] at ht'
    split at ht'
    · cases ht'
    · rename_i hne
      exact ⟨hne, ht'⟩
  have settled : ∀ p o, (l.promises.settle t.promise (l.outcomeOf t.chunk e)).outcome? p = some o →
      l.promises.outcome? p = some o ∨ p = t.promise ∧
        l.promises.isPending t.promise = true ∧ o = l.outcomeOf t.chunk e :=
    fun p _ => Promises.outcome?_settle_cases l.promises t.promise p
  refine
    { policy := c.policy
      onward := c.onward.trans (.settle _ _ _)
      answered := c.answered
      cancelled := fun p ho => ?_
      tickets := fun chunk t' ht' => c.tickets chunk t' (tickets chunk t' ht').2
      handed := fun chunk p hm => ?_
      real := fun chunk p o hm hpend ho => ?_ }
  · rcases settled p _ ho with ho | ⟨-, -, heq⟩
    · exact c.cancelled p ho
    · exact absurd heq.symm (l.outcomeOf_ne_cancelled _ _)
  · rcases c.handed chunk p hm with h | h | h
    · exact .inl h
    · exact .inr (.inl h)
    · refine .inr (.inr fun ho => ?_)
      rcases settled p _ ho with ho | ⟨-, -, heq⟩
      · exact h ho
      · exact absurd heq.symm (l.outcomeOf_ne_cancelled _ _)
  · rcases settled p o ho with ho | ⟨rfl, hp, rfl⟩
    · obtain ⟨he, hl, hover⟩ := c.real chunk p o hm hpend ho
      refine ⟨he, fun hok => ?_, fun t' ht' => hover t' (tickets chunk t' ht').2⟩
      have hne : chunk ≠ t.chunk := by
        rintro rfl
        rw [hl hok] at hentry
        cases hentry
      exact (Cache.find?_ended ..).trans ((if_neg hne).trans (hl hok))
    · -- The promise is the one of its chunk's attempt, so the chunk is the one that ends.
      obtain ⟨t', ht', hp'⟩ := w.awaited chunk _ (c.answered hm) hp
      have hchunk : chunk = t.chunk := w.distinct chunk t.chunk t' _ ht' ticket (hp'.trans hprom.symm)
      subst hchunk
      refine ⟨⟨e, rfl⟩, fun hok => ?_, fun t' ht' => absurd rfl (tickets _ t' ht').1⟩
      have hload : e.isLoad = true := by
        unfold outcomeOf at hok
        split at hok
        · assumption
        · cases hok
      exact (Cache.find?_ended ..).trans ((if_pos rfl).trans (if_pos hload))

/-- A request is answered with a promise that is due. -/
theorem hand (c : Course l₀ l) {chunk : ChunkId} {p : PromiseId}
    (h : l.Due chunk p) : Course l₀ (l.hand chunk p) := by
  refine
    { c with
      answered := fun _ hx => List.mem_append_left _ (c.answered hx)
      handed := fun k q hm => ?_
      real := fun k q o hm hpend ho => ?_ }
  · rcases List.mem_append.mp hm with hm | hm
    · exact c.handed k q hm
    · cases List.mem_singleton.mp hm
      rcases h.2 with ⟨t, ht, rfl⟩ | ho
      · rcases Nat.lt_or_ge t.promise l₀.promises.table.size with hlt | hge
        · exact .inr (.inl ⟨t, c.tickets chunk t ht hlt, rfl⟩)
        · refine .inr (.inr fun hcan => ?_)
          have hnew := l₀.promises.outcome?_of_le _ hge
          rw [c.cancelled _ hcan] at hnew
          cases hnew
      · exact .inr (.inr fun hcan => by cases ho.symm.trans hcan)
  · obtain ⟨he, hl, hover⟩ := c.real k q o hm hpend ho
    exact ⟨he, hl, hover⟩

end Course

theorem Change.course {l₀ : Loader} (h : Change asked l l') (w : Whole asked l)
    (c : Course l₀ l) : Course l₀ l' := by
  cases h with
  | used ho => exact c.entries rfl rfl rfl (fun _ _ => id) fun _ => id
  | skipped chunk ho =>
    refine c.entries rfl rfl rfl (fun k t ht => ?_) fun k hk => Cache.find?_mark_of_some hk .skipped
    rw [← Cache.ticketOf?_mark _ chunk k (e := .skipped) (by simp [Entry.state])]
    exact ht
  | @joined chunk p h ho =>
    refine c.entries rfl rfl rfl (fun k t ht => ?_) fun k hk => ?_
    · rw [← Cache.ticketOf?_join _ chunk k h]
      exact ht
    · rw [Cache.find?_join, if_neg]
      · exact hk
      · rintro rfl
        rw [h] at hk
        cases hk
  | kept h he ho =>
    obtain ⟨ready, hs⟩ := l.newPromise.1.settlePromise_eq l.newPromise.2 .ok
    have made : Course l₀ { l with
        promises := l.promises.create.1.settle l.promises.create.2 .ok, cache := l.cache } := by
      refine c.create ((Promises.Onward.create _).trans (.settle _ _ _)) (fun p o ho' hne => ?_) ?_
        (fun _ _ => .inl) fun _ => id
      · have hne' : p ≠ l.promises.create.2 := hne
        rw [Promises.outcome?_settle_of_ne _ _ _ _ hne', Promises.outcome?_create] at ho'
        exact ho'
      · rw [show l.promises.table.size = l.promises.create.2 from rfl,
          Promises.outcome?_settle_of_isPending l.promises.isPending_created]
        exact nofun
    rw [hs]
    exact made.congr rfl rfl rfl rfl
  | @begun chunk h ho =>
    have made : Course l₀ { l with
        promises := l.promises.create.1
        cache := (l.cache.begin chunk l.promises.create.2).1 } := by
      refine c.create (.create _) (fun p o ho' _ => ?_) ?_ (fun k t ht => ?_) fun k hk => ?_
      · rw [Promises.outcome?_create] at ho'
        exact ho'
      · rw [Promises.outcome?_create, l.promises.outcome?_of_le _ (Nat.le_refl _)]
        exact nofun
      · rw [Cache.ticketOf?_begin] at ht
        split at ht
        · cases ht
          exact .inr rfl
        · exact .inl ht
      · rw [Cache.find?_begin, if_neg]
        · exact hk
        · rintro rfl
          rw [h] at hk
          cases hk
    exact made
  | @abandoned t h =>
    unfold abandon
    split
    · rename_i hh
      obtain ⟨p, hp, -⟩ := Cache.honours_iff.mp hh
      refine c.entries rfl rfl rfl (fun k t' ht => ?_) fun k hk => ?_
      · rw [Cache.ticketOf?_drop] at ht
        split at ht
        · cases ht
        · exact ht
      · rw [Cache.find?_drop, if_neg]
        · exact hk
        · rintro rfl
          rw [hp] at hk
          cases hk
    · exact c
  | handed h ho => exact c.hand h
  | @concluded a x ha hx e =>
    rw [detach_eq]
    exact c.congr rfl rfl rfl rfl
  | @settled t h e =>
    obtain ⟨ready, log, hs⟩ := l.settleEntry_eq t e
    rw [hs]
    exact (c.ended w h e).congr rfl rfl rfl rfl
  | @aborted t h =>
    obtain ⟨ready, hs⟩ := l.abortEntry_eq_ended t
    rw [hs]
    exact (c.ended w h { type := "abort" }).congr rfl rfl rfl rfl
  | _ => exact c.congr rfl rfl rfl rfl

theorem Act.course {l₀ : Loader} {m : Move} (h : Act asked l m l') (hm : ¬m.IsCancel)
    (w : Whole asked l) (c : Course l₀ l) : Course l₀ l' := by
  cases h with
  | work h => exact h.course w c
  | @marked chunk e he =>
    refine c.entries rfl rfl rfl (fun k t ht => ?_) fun k hk => Cache.find?_mark_of_some hk e
    rw [← Cache.ticketOf?_mark _ chunk k he]
    exact ht
  | attached h =>
    obtain ⟨_, _, _, h⟩ := l.outer_attach h
    rw [h]
    exact c.congr rfl rfl rfl rfl
  | removed h =>
    obtain ⟨_, _, _, h⟩ := l.outer_remove h
    rw [h]
    exact c.congr rfl rfl rfl rfl
  | cancelled p => exact absurd trivial hm
  | taskCancelled t => exact absurd trivial hm
  | @told t p rest h =>
    obtain ⟨tasks, ready, h⟩ := childSettled_eq { l with ready := rest } t p
    rw [h]
    exact c.congr rfl rfl rfl rfl
  | @woken t rest h =>
    obtain ⟨tasks, h⟩ := wakeTask_eq { l with ready := rest } t
    rw [h]
    exact c.congr rfl rfl rfl rfl
  | @awaited t chunks ps h hp =>
    obtain ⟨tasks, ready, h⟩ := l.await_eq t ps
    rw [h]
    exact c.congr rfl rfl rfl rfl
  | _ => exact c.congr rfl rfl rfl rfl

end Loader

/-! ## §3 What a cancellation does -/

namespace Run

variable {r : Run} {m : Move} {p : PromiseId}

theorem loader_cancelPromise (r : Run) (p : PromiseId) :
    (r.step (.invoke (.cancelPromise p))).loader = r.loader.settlePromise p .cancelled := rfl

theorem loader_cancelTask (r : Run) (t : TaskId) :
    (r.step (.invoke (.cancelTask t))).loader = (r.loader.cancelTask t).1 := rfl

/-- A cancellation is the outcome of a pending promise that it is for. -/
theorem Cancels.outcome? (h : r.Cancels m p) (hp : r.loader.promises.isPending p = true) :
    (r.step m).loader.promises.outcome? p = some .cancelled := by
  rcases h with rfl | ⟨t, w, rfl, ht, ho, hmem⟩
  · obtain ⟨ready, h⟩ := r.loader.settlePromise_eq p .cancelled
    rw [loader_cancelPromise, h]
    exact Promises.outcome?_settle_of_isPending hp _
  · have hany : (w.outcome.isNone && w.children.any r.loader.promises.isPending) = true := by
      rw [ho]
      exact List.any_eq_true.mpr ⟨p, hmem, hp⟩
    rw [loader_cancelTask]
    simp only [Loader.cancelTask, ht, hany, if_true]
    change (w.children.foldl (fun l p => (l.cancelPromise p).1) r.loader).promises.outcome? p = _
    rw [(Loader.cancelAll_promises ..).1]
    exact Promises.outcome?_cancelAll hmem hp

/-- In a move that cancels nothing, promises go their own way. -/
theorem Rested.course (h : r.Rested fun _ => True) (hm : m.Outer) (hc : ¬m.IsCancel) :
    Loader.Course r.loader (r.step m).loader :=
  (h.acts hm (Move.asks_all m)).1.keeps (fun _ _ w ha c => ha.course hc w c) h.whole (.refl _)

/-- What every act keeps of a loader whose tasks are attentive, several moves keep. -/
theorem Rested.steps (h : r.Rested fun _ => True) (a : r.loader.Attentive) {P : Loader → Prop}
    {ms : List Move} (outer : ∀ m ∈ ms, m.Outer)
    (keeps : ∀ m ∈ ms, ∀ l l', Loader.Attentive l → Loader.Act (fun _ => True) l m l' →
      P l → P l') (hP : P r.loader) : P (r.steps ms).loader := by
  have reach : Reachable (fun _ m => m ∈ ms ∧ m.Outer) r (r.steps ms) :=
    Reachable.start.steps ms fun _ m hm => ⟨hm, outer m hm⟩
  have both := Rested.of_reachable (I := fun l => l.Attentive ∧ P l)
    (fun _ m hm => ⟨hm.2, Move.asks_all m⟩)
    (fun _ m hm l l' w ha i => ⟨ha.attentive w i.1, keeps m hm.1 l l' i.1 ha i.2⟩) h ⟨a, hP⟩ reach
  exact both.2.2

/-- A request for a chunk in flight is answered with the promise of the attempt. -/
theorem answers_request {chunk : ChunkId} {e : Pending} (ho : r.loader.closed = false)
    (he : r.loader.cache.find? chunk = some (.inFlight e))
    (hs : (r.loader.sink.add Loader.requestsTotal (.whole 1) [("result", "join")]).2 = none) :
    (r.step (.invoke (.request chunk))).answers = r.answers ++ [.promise e.promise] := by
  have marked : r.loader.mark chunk .skipped = r.loader := by
    simp [Loader.mark, Cache.mark, he]
  have asked : r.loader.request chunk = r.loader.serve chunk := by
    unfold Loader.request
    rw [marked]
    simp [ho]
  have found : ({ r.loader.cache with used := true } : Cache).find? chunk = some (.inFlight e) := he
  have served : ∃ l, r.loader.serve chunk = (l, .ok (e.promise, none)) := by
    simp only [Loader.serve, found, Loader.count, hs, Option.map_none]
    exact ⟨_, rfl⟩
  obtain ⟨l, hl⟩ := served
  simp [step, Loader.invoke, asked, hl, Loader.atOnce, Loader.drive, after]

/-! ## §4 Uses -/

/-- A task of which nothing is in the queue waits for a promise that is pending. -/
theorem hears_quiet {t : TaskId} {w : Wait} (h : r.loader.Hears t w) (hq : r.loader.ready = []) :
    (∃ p ∈ w.children, r.loader.promises.isPending p = true) ∧
      ∀ p ∈ w.children, r.loader.promises.isPending p = true ∨
        r.loader.promises.outcome? p = some .ok := by
  have undecided : w.outcome = none := by
    cases ho : w.outcome with
    | none => rfl
    | some o =>
      have hm := h.woken o ho
      rw [hq] at hm
      cases hm
  have pending : ∀ p ∈ w.left, r.loader.promises.isPending p = true := by
    intro p hp
    cases hb : r.loader.promises.isPending p with
    | true => rfl
    | false =>
      have hm := h.told undecided p hp hb
      rw [hq] at hm
      cases hm
  refine ⟨?_, fun p hp => ?_⟩
  · obtain ⟨p, hp⟩ := List.exists_mem_of_ne_nil _ (h.left_ne undecided)
    exact ⟨p, h.sub p hp, pending p hp⟩
  · by_cases hl : p ∈ w.left
    · exact .inl (pending p hl)
    · exact .inr (h.noted undecided p hp hl)

end Run

end SingleFlight
