/-
SingleFlight.Proofs.Coupling — a whole loader's cache and loads move together.

§1 shows that work leaves a loader coupled, §2 does it for operations, jobs and
watchdogs, §3 for uses of a loader. The work of a whole loader can stop only at
an observer that is nobody's load, and then nothing is left to do after it: so
between two moves there is never an attempt half started or half ended.

* `Run.layers_coupled` — what this comes to for entries, loads, watchdogs and
  promises.
-/
import SingleFlight.Loader.Run
import SingleFlight.Proofs.Closings
import SingleFlight.Proofs.Coupled

namespace SingleFlight.Loader.Coupled

variable {l l' : Loader}

/-! ## §1 Work -/

/-- Fetches and shutdowns have no part in the coupling. -/
theorem unloads (c : Coupled l none none) (h : Unloads l l') : Coupled l' none none := by
  obtain ⟨_, _, _, _, rfl, -, -⟩ := h
  exact c.congr rfl rfl rfl rfl rfl rfl rfl rfl

/-- An active load is known by its ticket, and its attempt is in flight. -/
theorem exists_ticket {a : AttemptId} {x : Attempt} (c : Coupled l none none)
    (ha : l.attempts.get? a = some x) (hx : x.settled = false) :
    ∃ h t, x = { chunk := t.chunk, handle := h, done := .redeem t } ∧
      l.cache.ticketOf? t.chunk = some t := by
  obtain ⟨t, ⟨-, h, ha'⟩, ht, -⟩ := c.carried a (c.orderly.mem_active_of_unsettled ha hx)
  rw [ha] at ha'
  exact ⟨h, t, Option.some.inj ha', ht⟩

/-- A signal ends loads, and at most calls the observer behind them. -/
theorem signal (e : LoadEvent) (foreign : Option CallbackId) (waiting : List AttemptId)
    (c : Coupled l none none) :
    ∃ l', Coupled l' none none ∧
      (Loader.signal e foreign waiting l = (l', .through) ∨
        ∃ k, foreign = some k ∧
          Loader.signal e foreign waiting l = (l', .calls (.observe k e) [])) := by
  induction waiting generalizing l with
  | nil =>
    refine ⟨l, c, ?_⟩
    cases foreign with
    | none => exact .inl rfl
    | some k => exact .inr ⟨k, rfl, rfl⟩
  | cons a rest ih =>
    cases ha : l.attempts.get? a with
    | none => exact ⟨l, c, .inl (by simp [Loader.signal, ha])⟩
    | some x =>
      cases hx : x.settled with
      | true => exact ⟨l, c, .inl (by simp [Loader.signal, ha, hx])⟩
      | false =>
        obtain ⟨h, t, rfl, ht⟩ := c.exists_ticket ha hx
        obtain ⟨l₁, hcon, c₁, -⟩ := c.finish ha ht (.inl ⟨rfl, rfl⟩) e
        obtain ⟨l', c', hsig⟩ := ih c₁
        refine ⟨l', c', ?_⟩
        simp only [Loader.signal, ha, hcon, Bool.false_eq_true, if_false]
        exact hsig

/-- Ending one load takes it from the active ones and no other, and its chunk is in flight no more. -/
theorem settleLoad (c : Coupled l none none) (a : AttemptId) (e : LoadEvent) :
    ∃ l', l.settleLoad a e = (l', .through) ∧ Coupled l' none none ∧
      l'.active = l.active.filter (· ≠ a) ∧
      ∀ t, l.Carries a t → l'.cache.ticketOf? t.chunk = none := by
  have absent : a ∉ l.active → l.active = l.active.filter (· ≠ a) := by
    intro hm
    refine (List.filter_eq_self.mpr fun b hb => ?_).symm
    have hba : b ≠ a := fun e => hm (e ▸ hb)
    simpa using hba
  cases ha : l.attempts.get? a with
  | none =>
    have hm : a ∉ l.active := by
      intro hm
      obtain ⟨-, x, hx, -⟩ := (c.orderly.active_iff a).mp hm
      rw [ha] at hx
      cases hx
    exact ⟨l, by simp [Loader.settleLoad, Loader.signal, ha], c, absent hm,
      fun t hcar => absurd hcar.1 hm⟩
  | some x =>
    cases hx : x.settled with
    | true =>
      have hm := c.orderly.not_mem_active_of_settled ha hx
      exact ⟨l, by simp [Loader.settleLoad, Loader.signal, ha, hx], c, absent hm,
        fun t hcar => absurd hcar.1 hm⟩
    | false =>
      obtain ⟨h, t, rfl, ht⟩ := c.exists_ticket ha hx
      obtain ⟨l₁, hcon, c₁, hact, hnone, -⟩ := c.finish ha ht (.inl ⟨rfl, rfl⟩) e
      refine ⟨_, ?_, c₁, hact, fun t' hcar => ?_⟩
      · simp [Loader.settleLoad, Loader.signal, ha, hcon]
      · rw [hcar.ticket_eq ha]
        exact hnone

theorem abortAll (attempts : List AttemptId) (c : Coupled l none none) :
    ∃ l', Loader.abortAll attempts l = (l', .through) ∧ Coupled l' none none ∧
      ∀ b, b ∈ l'.active ↔ b ∈ l.active ∧ b ∉ attempts := by
  induction attempts generalizing l with
  | nil => exact ⟨l, rfl, c, by simp⟩
  | cons a rest ih =>
    obtain ⟨l₁, hset, c₁, hact, -⟩ := c.settleLoad a (l.endSignal a "abort")
    obtain ⟨l', hrest, c', hmem⟩ := ih c₁
    refine ⟨l', by simp only [Loader.abortAll, hset]; exact hrest, c', fun b => ?_⟩
    rw [hmem, hact, List.mem_filter, List.mem_cons]
    simp only [ne_eq, decide_not, Bool.not_eq_true', decide_eq_false_iff_not]
    tauto

/-- The attempt of a request gets its load, or has been dropped again. -/
theorem start {t : Ticket} (c : Coupled l (some t) none) :
    ∃ l', Coupled l' none none ∧
      (l.start t = (l', .through) ∧ Owed l' t.chunk t.promise ∨ ∃ f, l.start t = (l', .fails f)) := by
  obtain ⟨resolve, hw⟩ := c.wired
  obtain ⟨ht, -⟩ := c.fresh t rfl
  have hmade := c.made _ _ ht
  simp only [Loader.start, hw]
  cases hr : resolve t.chunk with
  | error f => exact ⟨l.abandon t, c.abandon, .inr ⟨f, by simp [fetch, hr]⟩⟩
  | ok url =>
    cases hf : l.findHandle t.chunk url with
    | none =>
      obtain ⟨sink, log, fetches, ready, steady, hl, -⟩ := load_of_unfound (.redeem t) c.steady hf
      have c₁ : Coupled
          { l with
            attempts := l.attempts.add
              { chunk := t.chunk, handle := l.handles.size, done := .redeem t }
            active := l.active ++ [l.attempts.size]
            watchdogs := l.watchdogs ++ [⟨l.attempts.size, l.now + l.plan.policy.timeout⟩]
            handles := (l.handles.add (l.madeHandle t.chunk url)).update l.handles.size
              (·.observe l.attempts.size)
            registry := l.registry.attach l.handles.size url
            sink
            log
            fetches
            ready } none none :=
        c.wait rfl rfl rfl steady rfl rfl rfl rfl
      exact ⟨_, c₁, .inl ⟨by simp only [fetch, hr, hl], hmade, fun _ => ⟨t, ht, rfl⟩⟩⟩
    | some h =>
      cases hload : (l.handles.get? h).any (·.loading) with
      | true =>
        obtain ⟨sink, log, steady, hl⟩ := load_of_loading (.redeem t) hf c.steady hload
        have c₁ : Coupled
            { l with
              attempts := l.attempts.add { chunk := t.chunk, handle := h, done := .redeem t }
              active := l.active ++ [l.attempts.size]
              watchdogs := l.watchdogs ++ [⟨l.attempts.size, l.now + l.plan.policy.timeout⟩]
              handles := l.handles.update h (·.observe l.attempts.size)
              sink
              log } none none :=
          c.wait rfl rfl rfl steady rfl rfl rfl rfl
        exact ⟨_, c₁, .inl ⟨by simp only [fetch, hr, hl], hmade, fun _ => ⟨t, ht, rfl⟩⟩⟩
      | false =>
        obtain ⟨sink, log, steady, hl⟩ := load_of_complete (.redeem t) hf c.steady hload
        have c₁ : Coupled
            { l with
              attempts := l.attempts.add { chunk := t.chunk, handle := h, done := .redeem t }
              sink
              log } (some t) (some l.attempts.size) :=
          c.hold rfl rfl rfl steady rfl rfl rfl rfl
        have hnew : (l.attempts.add { chunk := t.chunk, handle := h, done := .redeem t }).get?
            l.attempts.size = some { chunk := t.chunk, handle := h, done := .redeem t } := by
          rw [Table.get?_add_size]
        obtain ⟨l₁, hcon, c₂, -, -, hpend, hsize⟩ := c₁.finish hnew ht (.inr ⟨rfl, rfl⟩)
          (signalFrom
            { l with
              attempts := l.attempts.add { chunk := t.chunk, handle := h, done := .redeem t }
              sink
              log } h "load")
        refine ⟨_, c₂, .inl ⟨?_, by rw [hsize]; exact hmade, fun hp => ?_⟩⟩
        · simp only [fetch, hr, hl, Loader.settleLoad, Loader.signal, hnew, hcon,
            Bool.false_eq_true, if_false]
        · rw [hpend] at hp
          cases hp

/-- A request is refused after a shutdown, and otherwise served. -/
theorem request (c : Coupled l none none) (chunk : ChunkId) :
    l.request chunk = (l, .error .closed) ∨
      (∃ l' p, l.request chunk = (l', .ok (p, none)) ∧ Coupled l' none none ∧ Owed l' chunk p) ∨
        ∃ l' t, l.request chunk = (l', .ok (t.promise, some t)) ∧ t.chunk = chunk ∧
          Coupled l' (some t) none := by
  unfold Loader.request
  split
  · exact .inl rfl
  · split
    · exact .inr (c.serve chunk)
    · exact .inr ((c.mark (by simp [Entry.state])).serve chunk)

/-- A task gets all its promises, or ends with the error of a request. -/
theorem collect (task : TaskId) (chunks : List ChunkId) (got : List PromiseId)
    (c : Coupled l none none) :
    ∃ l', Loader.collect task got chunks l = (l', .through) ∧ Coupled l' none none := by
  induction chunks generalizing l got with
  | nil =>
    refine ⟨l.await task got, by simp [Loader.collect], ?_⟩
    unfold await
    split
    · exact c.congr rfl rfl rfl rfl rfl rfl rfl rfl
    · exact c.congr rfl rfl rfl rfl rfl rfl rfl rfl
  | cons chunk rest ih =>
    rcases c.request chunk with hr | ⟨l₁, p, hr, c₁, ho⟩ | ⟨l₁, t, hr, rfl, c₁⟩
    · exact ⟨l.endTask task (.fault .closed), by simp [Loader.collect, hr],
        c.congr rfl rfl rfl rfl rfl rfl rfl rfl⟩
    · obtain ⟨l', hc, c'⟩ := ih (got ++ [p]) (c₁.hand ho)
      exact ⟨l', by simp only [Loader.collect, hr]; exact hc, c'⟩
    · obtain ⟨l₂, c₂, ⟨hs, ho⟩ | ⟨f, hs⟩⟩ := c₁.start
      · obtain ⟨l', hc, c'⟩ := ih (got ++ [t.promise]) (c₂.hand ho)
        exact ⟨l', by simp only [Loader.collect, hr, hs]; exact hc, c'⟩
      · exact ⟨l₂.endTask task (.fault f), by simp [Loader.collect, hr, hs],
          c₂.congr rfl rfl rfl rfl rfl rfl rfl rfl⟩

/-- Work has come to its end, or to a call after which nothing is left of it. -/
def Clear (p : Loader × Progress) : Prop :=
  Coupled p.1 none none ∧ ∀ call rest, p.2 = .calling call rest → rest = []

theorem clear_finished (c : Coupled l none none) : Clear (l.drive []) :=
  ⟨c, by intro call rest h; cases h⟩

/-- Nothing is left to do, and only what has no part in the coupling has changed. -/
theorem clear_beside (c : Coupled l none none) (hc : l'.cache = l.cache)
    (hp : l'.promises = l.promises) (hh : l'.handed = l.handed) (hat : l'.attempts = l.attempts)
    (hac : l'.active = l.active) (hw : l'.watchdogs = l.watchdogs) (hpl : l'.plan = l.plan)
    (hs : l'.sink = l.sink) : Clear (l'.drive []) :=
  (c.congr hc hp hh hat hac hw hpl hs).clear_finished

theorem clear_signal (c : Coupled l none none) (s : Slot) (e : LoadEvent) :
    Clear (l.drive [.signal s e]) := by
  obtain ⟨l', c', hs | ⟨k, -, hs⟩⟩ := c.signal e s.foreign s.waiting
  · have hd : l.drive [.signal s e] = (l', .finished) := by simp [drive, perform, hs]
    rw [hd]
    exact ⟨c', by intro call rest h; cases h⟩
  · have hd : l.drive [.signal s e] = (l', .calling (.observe k e) []) := by
      simp [drive, perform, hs]
    rw [hd]
    exact ⟨c', by intro call rest h; cases h; rfl⟩

theorem clear_abort (c : Coupled l none none) (attempts : List AttemptId) :
    Clear (l.drive [.abort attempts]) := by
  obtain ⟨l', hab, c', -⟩ := c.abortAll attempts
  have hd : l.drive [.abort attempts] = (l', .finished) := by simp [drive, perform, hab]
  rw [hd]
  exact ⟨c', by intro call rest h; cases h⟩

/-- The first active load of a chunk in flight is the one that carries out its attempt. -/
theorem activeFor?_of_carries (c : Coupled l none none) {a : AttemptId} {t : Ticket}
    (hcar : l.Carries a t) (ht : l.cache.ticketOf? t.chunk = some t) :
    l.activeFor? t.chunk = some a := by
  obtain ⟨hmem, h, hx⟩ := hcar
  cases hf : l.activeFor? t.chunk with
  | none =>
    have hno := List.find?_eq_none.mp hf a hmem
    simp [hx] at hno
  | some b =>
    have hb := List.find?_some hf
    obtain ⟨t', hcar', ht', -⟩ := c.carried b (List.mem_of_find?_eq_some hf)
    have hbt : t'.chunk = t.chunk := by
      obtain ⟨-, h', hx'⟩ := hcar'
      simpa [hx'] using hb
    rw [hbt, ht] at ht'
    cases ht'
    rw [c.unique a b t ⟨hmem, h, hx⟩ hcar']

/-- A report reaches the attempt through its load, so the cache has nothing left to settle. -/
theorem drive_report (c : Coupled l none none) {a : AttemptId} {t : Ticket}
    (hcar : l.Carries a t) (ht : l.cache.ticketOf? t.chunk = some t) (e : LoadEvent) :
    l.drive [.consult t.chunk e, .settle t e] = ((l.settleLoad a e).1, .finished) := by
  obtain ⟨resolve, hw⟩ := c.wired
  have hfirst := c.activeFor?_of_carries hcar ht
  obtain ⟨l', hset, c', -, hnone⟩ := c.settleLoad a e
  have hstale : l'.cache.honours t = false := Cache.not_honours_of_ticketOf? (hnone t hcar)
  simp [drive, perform, Loader.consult, hw, hfirst, hset, hstale]

theorem clear_report (c : Coupled l none none) {chunk : ChunkId} {t : Ticket}
    (ht : l.cache.ticketOf? chunk = some t) (e : LoadEvent) :
    Clear (l.drive [.consult chunk e, .settle t e]) := by
  obtain ⟨a, hcar⟩ := c.carrier chunk t ht (by simp)
  have hchunk := Cache.chunk_of_ticketOf? ht
  subst hchunk
  obtain ⟨l', hset, c', -⟩ := c.settleLoad a e
  rw [c.drive_report hcar ht e, hset]
  exact ⟨c', by intro call rest h; cases h⟩

/-- A shutdown aborts every load, so the cache has nothing left to close. -/
theorem drive_shut (c : Coupled l none none) (k : ClosingId) :
    ∃ l', Loader.abortAll l.active l = (l', .through) ∧ Coupled l' none none ∧ l'.active = [] ∧
      l.drive [.abort l.active, .shut k] = (l'.closeRegistry k, .finished) := by
  obtain ⟨l', hab, c', hmem⟩ := c.abortAll l.active
  have hnil : l'.active = [] := by
    rw [List.eq_nil_iff_forall_not_mem]
    intro a ha
    exact ((hmem a).mp ha).2 ((hmem a).mp ha).1
  have hidle : ∀ chunk, l'.cache.ticketOf? chunk = none := by
    intro chunk
    cases ht : l'.cache.ticketOf? chunk with
    | none => rfl
    | some t =>
      obtain ⟨a, hcar⟩ := c'.carrier chunk t ht (by simp)
      have ha := hcar.1
      rw [hnil] at ha
      cases ha
  have hclose : l'.closeCache = l' := by
    simp [closeCache, c'.single.inFlight_eq_nil hidle]
  exact ⟨l', hab, c', hnil, by simp [drive, perform, hab, hclose]⟩

theorem clear_shut (c : Coupled l none none) (k : ClosingId) :
    Clear (l.drive [.abort l.active, .shut k]) := by
  obtain ⟨l', -, c', -, hd⟩ := c.drive_shut k
  rw [hd]
  exact ⟨c'.unloads (.closeRegistry l' k), by intro call rest h; cases h⟩

theorem clear_start {t : Ticket} (c : Coupled l (some t) none) :
    Clear (l.drive [.start t, .hand t.chunk t.promise]) := by
  obtain ⟨l', c', ⟨hs, ho⟩ | ⟨f, hs⟩⟩ := c.start
  · have hd : l.drive [.start t, .hand t.chunk t.promise] =
        (l'.hand t.chunk t.promise, .finished) := by
      simp [drive, perform, hs]
    rw [hd]
    exact ⟨c'.hand ho, by intro call rest h; cases h⟩
  · have hd : l.drive [.start t, .hand t.chunk t.promise] = (l', .raised f) := by
      simp [drive, perform, hs, unwind]
    rw [hd]
    exact ⟨c', by intro call rest h; cases h⟩

theorem clear_collect (c : Coupled l none none) (task : TaskId) (got : List PromiseId)
    (chunks : List ChunkId) : Clear (l.drive [.collect task got chunks]) := by
  obtain ⟨l', hc, c'⟩ := c.collect task chunks got
  have hd : l.drive [.collect task got chunks] = (l', .finished) := by
    simp [drive, perform, hc]
  rw [hd]
  exact ⟨c', by intro call rest h; cases h⟩

/-! ## §2 Operations -/

/-- What the coupling needs of an invoked operation: its work ends clear. -/
def Invoked : Loader × Asked → Prop
  | (l, .error _) => Coupled l none none
  | (l, .ok (_, work)) => Clear (l.drive work)

theorem invoked_request (c : Coupled l none none) (chunk : ChunkId) :
    Invoked (l.invoke (.request chunk)) := by
  rcases c.request chunk with hr | ⟨l', p, hr, c', ho⟩ | ⟨l', t, hr, rfl, c'⟩
  · simp only [invoke, hr]
    exact c
  · simp only [invoke, hr]
    exact (c'.hand ho).clear_finished
  · simp only [invoke, hr]
    exact c'.clear_start

theorem clear_of_report (c : Coupled l none none) (chunk : ChunkId) (e : LoadEvent) :
    Clear ((l.report chunk e).1.drive (l.report chunk e).2) := by
  cases ht : l.cache.ticketOf? chunk with
  | none =>
    have hr : l.report chunk e = (l.noteIdle chunk e, []) := by simp [Loader.report, ht]
    rw [hr]
    exact c.clear_beside rfl rfl rfl rfl rfl rfl rfl rfl
  | some t =>
    have hr : l.report chunk e = (l, [.consult chunk e, .settle t e]) := by
      simp [Loader.report, ht]
    rw [hr]
    exact c.clear_report ht e

theorem clear_dispatch (c : Coupled l none none) (h : HandleId) (type : String) :
    Clear (l.drive (l.dispatch h type)) := by
  unfold dispatch
  split
  · exact c.clear_signal _ _
  · exact c.clear_finished

theorem attach (c : Coupled l none none) (h : HandleId) :
    Coupled (l.attach h).1 none none := by
  unfold Loader.attach
  split
  · exact c
  · split
    · split
      · exact c
      · exact c.congr rfl rfl rfl rfl rfl rfl rfl rfl
    · exact c.congr rfl rfl rfl rfl rfl rfl rfl rfl

theorem remove (c : Coupled l none none) (h : HandleId) : Coupled (l.remove h) none none := by
  unfold Loader.remove
  split
  · exact c
  · exact c.congr rfl rfl rfl rfl rfl rfl rfl rfl

theorem cancelAll (promises : List PromiseId) (c : Coupled l none none) :
    Coupled (promises.foldl (fun l p => (l.cancelPromise p).1) l) none none := by
  induction promises generalizing l with
  | nil => exact c
  | cons p rest ih => exact ih (c.settlePromise p .cancelled)

theorem cancelTask (c : Coupled l none none) (task : TaskId) :
    Coupled (l.cancelTask task).1 none none := by
  unfold Loader.cancelTask
  split
  · exact c.congr rfl rfl rfl rfl rfl rfl rfl rfl
  · split
    · exact (c.cancelAll _).congr rfl rfl rfl rfl rfl rfl rfl rfl
    · exact c.congr rfl rfl rfl rfl rfl rfl rfl rfl
  · exact c

end Coupled

end SingleFlight.Loader

namespace SingleFlight

/--
What code outside a whole loader can do to it, to its handles and to what it handed out. Left out
is what the parts of a loader do to each other alone: to give a ticket back, to close the cache
without the loads, to load on behalf of someone else.
-/
def Operation.Outer : Operation → Prop
  | .redeem _ _ => False
  | .closeCache => False
  | .load _ _ _ => False
  | .mark _ e => e.state ≠ .inFlight
  | _ => True

namespace Loader.Coupled

variable {l : Loader}

theorem invoke (c : Coupled l none none) {op : Operation} (hop : op.Outer) :
    Invoked (l.invoke op) := by
  have same : Clear (l.drive []) := c.clear_finished
  cases op with
  | request chunk => exact c.invoked_request chunk
  | mark chunk e => exact (c.mark hop).clear_finished
  | report chunk e => exact c.clear_of_report chunk e
  | reportLater chunk e =>
    simp only [Loader.invoke]
    split
    · exact c.clear_beside rfl rfl rfl rfl rfl rfl rfl rfl
    · exact c
  | redeem t e => exact hop.elim
  | closeCache => exact hop.elim
  | load chunk url done => exact hop.elim
  | settle chunk e =>
    simp only [Loader.invoke]
    split
    · exact same
    · exact c.clear_signal _ e
  | closeLoads => exact c.clear_abort l.active
  | closeRegistry =>
    exact ((c.unloads (.newClosing l)).unloads (.closeRegistry _ _)).clear_finished
  | close =>
    simp only [Loader.invoke]
    split
    · exact same
    · have c' : Coupled { l with closed := true } none none :=
        c.congr rfl rfl rfl rfl rfl rfl rfl rfl
      exact (c'.unloads (.newClosing _)).clear_shut _
  | cancelClosing k => exact (c.unloads (.cancelClosing l k)).clear_finished
  | clientClosed k problem => exact (c.unloads (.clientClosed l k problem)).clear_finished
  | plant handle => exact c.clear_beside rfl rfl rfl rfl rfl rfl rfl rfl
  | create url tag => exact c.clear_beside rfl rfl rfl rfl rfl rfl rfl rfl
  | createPlain url tag => exact c.clear_beside rfl rfl rfl rfl rfl rfl rfl rfl
  | attach h =>
    have c' := c.attach h
    simp only [Loader.invoke]
    cases ha : l.attach h with
    | mk l' refusal =>
      rw [ha] at c'
      cases refusal with
      | none => exact c'.clear_finished
      | some f => exact c'
  | remove h => exact (c.remove h).clear_finished
  | complete url type =>
    simp only [Loader.invoke]
    split
    · exact c
    · exact c.clear_dispatch _ type
  | dispatch h type => exact c.clear_dispatch h type
  | notify s e => exact c.clear_signal s e
  | assign h onLoad onError loading =>
    exact c.clear_beside rfl rfl rfl rfl rfl rfl rfl rfl
  | ensure chunks => exact c.clear_beside rfl rfl rfl rfl rfl rfl rfl rfl
  | cancelPromise p => exact (c.settlePromise p .cancelled).clear_finished
  | cancelTask t => exact (c.cancelTask t).clear_finished
  | respond url r =>
    simp only [Loader.invoke, Loader.respond]
    split
    · exact c.clear_beside rfl rfl rfl rfl rfl rfl rfl rfl
    · exact same
  | prompt url r =>
    cases r with
    | none => exact c.clear_beside rfl rfl rfl rfl rfl rfl rfl rfl
    | some reply => exact c.clear_beside rfl rfl rfl rfl rfl rfl rfl rfl

theorem clear_finishFetch (c : Coupled l none none) (h : HandleId) (type : String) :
    Clear ((l.finishFetch h type).1.drive (l.finishFetch h type).2) := by
  unfold finishFetch
  split
  · exact c.clear_signal _ _
  · exact c.clear_finished

theorem clear_failFetch (c : Coupled l none none) (h : HandleId) (url : String)
    (status : Option Int) (message : String) :
    Clear ((l.failFetch h url status message).1.drive (l.failFetch h url status message).2) := by
  refine clear_finishFetch ?_ h "error"
  exact c.congr rfl rfl rfl rfl rfl rfl rfl rfl

theorem clear_takeReply (c : Coupled l none none) (h : HandleId) (url : String) (r : Reply) :
    Clear ((l.takeReply h url r).1.drive (l.takeReply h url r).2) := by
  cases r with
  | response status content complaint =>
    simp only [takeReply]
    split
    · refine clear_finishFetch ?_ h "load"
      exact c.congr rfl rfl rfl rfl rfl rfl rfl rfl
    · exact c.clear_failFetch h url _ _
  | failed message => exact c.clear_failFetch h url none message
  | unsendable kind message =>
    refine clear_finishFetch ?_ h "error"
    exact c.congr rfl rfl rfl rfl rfl rfl rfl rfl

theorem clear_takeAnswer (c : Coupled l none none) (f : FetchId) :
    Clear ((l.takeAnswer f).1.drive (l.takeAnswer f).2) := by
  unfold takeAnswer
  split
  · split
    · exact clear_takeReply (c.unloads (.endFetch l f)) _ _ _
    · exact c.clear_finished
  · exact (c.unloads (.endFetch l f)).clear_finished
  · exact c.clear_finished

theorem clear_ask (c : Coupled l none none) (f : FetchId) :
    Clear ((l.ask f).1.drive (l.ask f).2) := by
  unfold ask
  split
  · split
    · exact clear_takeAnswer (c.unloads (.setStage l f _)) f
    · exact (c.unloads (.setStage l f .asked)).clear_finished
  · exact (c.unloads (.endFetch l f)).clear_finished
  · exact c.clear_finished

theorem clear_startTask (c : Coupled l none none) (task : TaskId) :
    Clear ((l.startTask task).1.drive (l.startTask task).2) := by
  unfold startTask
  split
  · exact c.clear_beside rfl rfl rfl rfl rfl rfl rfl rfl
  · exact c.clear_collect task [] _
  · exact c.clear_finished

theorem childSettled (c : Coupled l none none) (task : TaskId) (p : PromiseId) :
    Coupled (l.childSettled task p) none none := by
  unfold Loader.childSettled
  split
  · split
    · exact c.congr rfl rfl rfl rfl rfl rfl rfl rfl
    · dsimp only
      split
      · exact c.congr rfl rfl rfl rfl rfl rfl rfl rfl
      · exact c.congr rfl rfl rfl rfl rfl rfl rfl rfl
  · exact c

theorem wakeTask (c : Coupled l none none) (task : TaskId) :
    Coupled (l.wakeTask task) none none := by
  unfold Loader.wakeTask
  split
  · split
    · exact c.congr rfl rfl rfl rfl rfl rfl rfl rfl
    · exact c
  · exact c

theorem clear_runJob (c : Coupled l none none) (j : Job) :
    Clear ((l.runJob j).1.drive (l.runJob j).2) := by
  cases j with
  | report chunk e => exact c.clear_of_report chunk e
  | startTask t => exact c.clear_startTask t
  | childSettled t p => exact (c.childSettled t p).clear_finished
  | wakeTask t => exact (c.wakeTask t).clear_finished
  | ask f => exact c.clear_ask f
  | answer f => exact c.clear_takeAnswer f
  | forget f => exact c.clear_finished
  | fetchEnded k f => exact (c.unloads (.fetchEnded l k f)).clear_finished
  | wakeClosing k => exact (c.unloads (.wakeClosing l k)).clear_finished

/-- The load of a watchdog that fires is active, so it ends, at the time of the watchdog. -/
theorem drive_fireNext? (c : Coupled l none none) {target : Float} {work : List Frame}
    (h : l.fireNext? target = some (l', work)) :
    ∃ w, l.nextDue? target = some w ∧ w.attempt ∈ l.active ∧
      l'.drive work =
        ((({ l with now := w.due } : Loader).settleLoad w.attempt
          (l.endSignal w.attempt "timeout")).1, .finished) := by
  unfold fireNext? at h
  obtain ⟨w, hw, heq⟩ := Option.map_eq_some_iff.mp h
  cases heq
  have hmem : w.attempt ∈ l.active :=
    c.orderly.watched.mem_iff.mp (List.mem_map_of_mem (nextDue?_mem hw).1)
  obtain ⟨-, x, hx, hsettled⟩ := (c.orderly.active_iff _).mp hmem
  have c' : Coupled { l with now := w.due } none none :=
    c.congr rfl rfl rfl rfl rfl rfl rfl rfl
  obtain ⟨l₁, hset, -⟩ := c'.settleLoad w.attempt (l.endSignal w.attempt "timeout")
  have hsame := signal_disarm (l := { l with now := w.due }) hx hsettled
    (l.endSignal w.attempt "timeout") none []
  refine ⟨w, hw, hmem, ?_⟩
  rw [hset]
  unfold Loader.settleLoad at hset
  unfold drive perform
  dsimp only at hsame hset ⊢
  rw [hsame, hset]
  rfl

theorem clear_fireNext? (c : Coupled l none none) {target : Float} {work : List Frame}
    (h : l.fireNext? target = some (l', work)) : Clear (l'.drive work) := by
  obtain ⟨w, -, -, hd⟩ := c.drive_fireNext? h
  have c' : Coupled { l with now := w.due } none none :=
    c.congr rfl rfl rfl rfl rfl rfl rfl rfl
  obtain ⟨l₁, hset, c₁, -⟩ := c'.settleLoad w.attempt (l.endSignal w.attempt "timeout")
  rw [hd, hset]
  exact ⟨c₁, by intro call rest h; cases h⟩

theorem reorder (c : Coupled l none none) {active : List AttemptId}
    (hp : active.Perm l.active) : Coupled { l with active } none none := by
  have carries : ∀ a t, Carries { l with active } a t ↔ l.Carries a t :=
    fun a t => and_congr_left fun _ => hp.mem_iff
  refine
    { c with
      orderly := c.orderly.reorder hp
      carried := fun a ha => ?_
      carrier := ?_
      unique := ?_ }
  · simp only [carries]
    exact c.carried a (hp.mem_iff.mp ha)
  · simp only [carries]
    exact c.carrier
  · simp only [carries]
    exact c.unique

theorem replan (c : Coupled l none none) (resolve : ChunkId → Except Fault String)
    (hasAsset : ChunkId → Bool) : Coupled (l.replan resolve hasAsset) none none := by
  obtain ⟨resolve', hw⟩ := c.wired
  have hr : l.replan resolve hasAsset =
      { l with plan := { l.plan with wiring := .fetch resolve, hasAsset } } := by
    simp [Loader.replan, hw]
  rw [hr]
  exact { c with orderly := c.orderly.congr rfl rfl rfl, wired := ⟨resolve, rfl⟩ }

end Loader.Coupled

/-! ## §3 Uses -/

/-- A move by which code outside a whole loader uses it, or time passes. -/
def Move.Outer : Move → Prop
  | .invoke op => op.Outer
  | _ => True

namespace Run

/-- Between two moves a whole loader is coupled, and no call under way has work waiting for it. -/
structure Settled (r : Run) : Prop where
  coupled : Loader.Coupled r.loader none none
  clear : ∀ s ∈ r.suspended, s.rest = []

namespace Settled

variable {r : Run}

theorem after (h : ∀ s ∈ r.suspended, s.rest = []) {p : Loader × Progress}
    (hp : Loader.Coupled.Clear p) (answer : Option Answer) : Settled (r.after answer p) := by
  obtain ⟨l, progress⟩ := p
  obtain ⟨c, hrest⟩ := hp
  cases progress with
  | finished => exact ⟨c, h⟩
  | raised f => exact ⟨c, h⟩
  | calling call rest =>
    refine ⟨c, fun s hs => ?_⟩
    rcases List.mem_cons.mp hs with rfl | hs
    · exact hrest call rest rfl
    · exact h s hs

theorem step (h : r.Settled) {m : Move} (hm : m.Outer) : Settled (r.step m) := by
  cases m with
  | invoke op =>
    have hi := h.coupled.invoke (show op.Outer from hm)
    cases hop : r.loader.invoke op with
    | mk l asked =>
      rw [hop] at hi
      cases asked with
      | error f =>
        simp only [Run.step, hop]
        exact ⟨hi, h.clear⟩
      | ok x =>
        simp only [Run.step, hop]
        exact after h.clear hi (some x.1)
  | returns =>
    cases hs : r.suspended with
    | nil =>
      simp only [Run.step, hs]
      exact h
    | cons s outer =>
      have hall : ∀ s' ∈ s :: outer, s'.rest = [] := by
        rw [← hs]
        exact h.clear
      simp only [Run.step, hs, hall s (List.mem_cons_self ..)]
      exact after (fun s' hs' => hall s' (List.mem_cons_of_mem s hs')) h.coupled.clear_finished _
  | raises f =>
    cases hs : r.suspended with
    | nil =>
      simp only [Run.step, hs]
      exact h
    | cons s outer =>
      have hall : ∀ s' ∈ s :: outer, s'.rest = [] := by
        rw [← hs]
        exact h.clear
      simp only [Run.step, hs, hall s (List.mem_cons_self ..), Loader.unwind]
      exact ⟨h.coupled, fun s' hs' => hall s' (List.mem_cons_of_mem s hs')⟩
  | runJob =>
    simp only [Run.step]
    split
    · rename_i job l _ hj
      have c : Loader.Coupled l none none := by
        unfold Loader.nextJob? at hj
        split at hj
        · cases hj
        · cases hj
          exact h.coupled.congr rfl rfl rfl rfl rfl rfl rfl rfl
      exact after h.clear (c.clear_runJob job) none
    · exact h
  | fire target =>
    simp only [Run.step]
    split
    · rename_i l work _ hf
      exact after h.clear (h.coupled.clear_fireNext? hf) none
    · exact h
  | setClock now =>
    simp only [Run.step]
    split
    · exact ⟨h.coupled.congr rfl rfl rfl rfl rfl rfl rfl rfl, h.clear⟩
    · exact h
  | reorder active =>
    simp only [Run.step]
    split
    · rename_i hp
      exact ⟨h.coupled.reorder (List.isPerm_iff.mp hp), h.clear⟩
    · exact h
  | replan resolve hasAsset => exact ⟨h.coupled.replan resolve hasAsset, h.clear⟩

theorem of_reachable {start : Run} (h : start.Settled)
    (hr : Run.Reachable (fun _ m => m.Outer) start r) : r.Settled := by
  induction hr with
  | start => exact h
  | step _ hm ih => exact ih.step hm

end Settled

end Run

/-! ## §4 The layers of a loader -/

namespace Loader

/-- A loader as it is opened has nothing in flight and no loads. -/
theorem coupled_whole (policy : Policy) (resolve : ChunkId → Except Fault String)
    (hasAsset : ChunkId → Bool) {installed : List (ChunkId × String)} {cache : Cache}
    (hc : Cache.seed installed = .ok cache) (registry : Registry) {sink : Metrics.Sink}
    (hs : sink.Steady) :
    Coupled (.whole policy resolve hasAsset cache registry sink) none none := by
  obtain ⟨single, tickets, -⟩ := Cache.seed_spec hc
  exact
    { orderly := ⟨List.nodup_nil, by simp [whole, Table.get?], List.Perm.nil⟩
      steady := hs
      wired := ⟨resolve, rfl⟩
      single
      carried := fun a ha => nomatch ha
      carrier := fun chunk t ht => by simp [whole, tickets] at ht
      unique := fun a b t ha => nomatch ha.1
      fresh := fun t ht => nomatch ht
      handed := fun chunk p hm => nomatch hm
      bounded := fun chunk p hm => nomatch hm
      made := fun chunk t ht => by simp [whole, tickets] at ht }

/-- The active loads of a chunk. -/
def loadsOf (l : Loader) (chunk : ChunkId) : List AttemptId :=
  l.active.filter fun a => (l.attempts.get? a).any (·.chunk == chunk)

/-- Entries, loads, watchdogs and promises tell the same story. -/
structure Layered (l : Loader) : Prop where
  /-- A chunk in flight has one active load, and no other chunk has any. -/
  one_load : ∀ chunk,
    (l.loadsOf chunk).length = if l.cache.state chunk = .inFlight then 1 else 0
  unsettled : ∀ a ∈ l.active, ∃ x, l.attempts.get? a = some x ∧ x.settled = false
  /-- An active load has one armed watchdog, and no other load has any. -/
  watched : ∀ a,
    (l.watchdogs.filter (·.attempt = a)).length = if a ∈ l.active then 1 else 0
  /-- A promise that requests still wait for is the one in the entry of its chunk. -/
  awaited : ∀ chunk p, (chunk, p) ∈ l.handed → l.promises.isPending p = true →
    ∃ e, l.cache.find? chunk = some (.inFlight e) ∧ e.promise = p
  /-- Some active load is to settle such a promise. -/
  served : ∀ chunk p, (chunk, p) ∈ l.handed → l.promises.isPending p = true →
    ∃ a ∈ l.active, ∃ h n,
      l.attempts.get? a = some { chunk, handle := h, done := .redeem ⟨chunk, p, n⟩ }

namespace Coupled

variable {l : Loader}

/-- The load of a chunk is the one that carries out its attempt. -/
theorem mem_loadsOf (c : Coupled l none none) {a : AttemptId} {chunk : ChunkId} :
    a ∈ l.loadsOf chunk ↔ ∃ t, l.cache.ticketOf? chunk = some t ∧ l.Carries a t := by
  unfold loadsOf
  rw [List.mem_filter]
  constructor
  · rintro ⟨ha, hx⟩
    obtain ⟨t, ⟨hmem, h, hat⟩, htick, -⟩ := c.carried a ha
    have hchunk : t.chunk = chunk := by simpa [hat] using hx
    exact ⟨t, hchunk ▸ htick, hmem, h, hat⟩
  · rintro ⟨t, htick, hmem, h, hat⟩
    have hchunk := Cache.chunk_of_ticketOf? htick
    exact ⟨hmem, by simp [hat, hchunk]⟩

theorem length_loadsOf (c : Coupled l none none) (chunk : ChunkId) :
    (l.loadsOf chunk).length = if l.cache.state chunk = .inFlight then 1 else 0 := by
  have nodup : (l.loadsOf chunk).Nodup := c.orderly.nodup.filter _
  split
  · rename_i hs
    obtain ⟨t, ht⟩ := Cache.state_eq_inFlight.mp hs
    obtain ⟨a, hcar⟩ := c.carrier chunk t ht (by simp)
    have hone : l.loadsOf chunk = [a] := by
      refine List.perm_singleton.mp ((List.perm_ext_iff_of_nodup nodup (by simp)).mpr fun b => ?_)
      rw [c.mem_loadsOf, List.mem_singleton]
      constructor
      · rintro ⟨t', ht', hcar'⟩
        rw [ht] at ht'
        cases ht'
        exact c.unique b a t hcar' hcar
      · rintro rfl
        exact ⟨t, ht, hcar⟩
    rw [hone]
    rfl
  · rename_i hs
    rw [List.length_eq_zero_iff, List.eq_nil_iff_forall_not_mem]
    intro a ha
    obtain ⟨t, ht, -⟩ := c.mem_loadsOf.mp ha
    exact hs (Cache.state_eq_inFlight.mpr ⟨t, ht⟩)

theorem layered (c : Coupled l none none) : l.Layered where
  one_load := c.length_loadsOf
  unsettled := fun a ha => ((c.orderly.active_iff a).mp ha).2
  watched := c.orderly.watchdogs_of
  awaited := by
    intro chunk p hm hp
    obtain ⟨t, ht, hprom⟩ := c.handed chunk p hm hp
    obtain ⟨e, he, rfl⟩ := Cache.ticketOf?_eq_some.mp ht
    exact ⟨e, he, hprom⟩
  served := by
    intro chunk p hm hp
    obtain ⟨t, ht, hprom⟩ := c.handed chunk p hm hp
    obtain ⟨a, hmem, h, hat⟩ := c.carrier chunk t ht (by simp)
    have hchunk := Cache.chunk_of_ticketOf? ht
    subst hprom hchunk
    exact ⟨a, hmem, h, t.attempt, hat⟩

end Coupled

end Loader

namespace Run

/--
Whatever is done to a whole loader from outside, in whatever order, and wherever the observers of
handles use it again: between two moves its layers agree. The sink refuses no count.
-/
theorem layers_coupled {policy : Policy} {resolve : ChunkId → Except Fault String}
    {hasAsset : ChunkId → Bool} {installed : List (ChunkId × String)} {cache : Cache}
    {registry : Registry} {sink : Metrics.Sink} {r : Run}
    (hc : Cache.seed installed = .ok cache) (hs : sink.Steady)
    (hr : Run.Reachable (fun _ m => m.Outer)
      { loader := .whole policy resolve hasAsset cache registry sink } r) :
    r.loader.Layered := by
  have opened : Settled { loader := .whole policy resolve hasAsset cache registry sink } :=
    ⟨Loader.coupled_whole policy resolve hasAsset hc registry hs, fun s h => nomatch h⟩
  exact (Settled.of_reachable opened hr).coupled.layered

/-- Two chunks of one address share a handle; a report for one of them leaves the other in flight. -/
theorem layers_coupled_after_report :
    let opened : Run :=
      { loader := .whole {} (fun _ => .ok "/both.css") (fun _ => true)
          { entries := [(.name "base", .loaded)] } (.document [] 0) .silent }
    let r := opened.steps
      [.invoke (.request (.name "a")), .invoke (.request (.name "b")),
        .invoke (.report (.name "a") { type := "error" })]
    r.loader.Layered ∧ r.loader.cache.state (.name "a") = .unknown ∧
      r.loader.cache.state (.name "b") = .inFlight := by
  intro opened r
  have hc : Cache.seed [(.name "base", "loaded")] =
      .ok { entries := [(.name "base", .loaded)] } := rfl
  have hr : Reachable (fun _ m => m.Outer) opened r := by
    refine Reachable.start.steps _ fun s m hm => ?_
    simp only [List.mem_cons, List.not_mem_nil, or_false] at hm
    rcases hm with rfl | rfl | rfl
    · trivial
    · trivial
    · trivial
  exact ⟨layers_coupled hc Metrics.Sink.steady_silent hr, by decide, by decide⟩

end Run

end SingleFlight
