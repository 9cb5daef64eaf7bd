/-
SingleFlight.Proofs.Shutdown — a loader that is shut down.

A shutdown ends the active loads one by one, then whatever is in flight still, and
all of that at once; only then does it turn to the registry and begin to wait. There
is nothing left by then that could end: no load waits, nothing is in flight, and
requests are refused. So whatever comes in later finds nobody to tell.

* `Loader.Tended` — active loads are the unsettled ones, their handles exist,
  and a client that is not the registry's own is left open.
* `Loader.Winding` — how far a shutdown has got, with what each promise ended by.
* `Loader.Inert` — a loader in which nothing can end any more.
* `Run.EndsLoads` — what a shutdown does to loads and the cache, and that it is final.

The sink may refuse counts. A shutdown that meets such a refusal raises it and
does not get to the registry; most of `Run.EndsLoads` is about shutdowns that do.
-/
import SingleFlight.Proofs.Waiting

namespace SingleFlight

/-! ## §1 Loads that are tended -/

namespace Table

variable {α : Type} {table table' table'' : Table α}

/-- No row is lost. -/
def Kept (table table' : Table α) : Prop :=
  ∀ i x, table.get? i = some x → ∃ x', table'.get? i = some x'

theorem Kept.refl : table.Kept table :=
  fun _ x hx => ⟨x, hx⟩

theorem Kept.trans (h : table.Kept table') (h' : table'.Kept table'') : table.Kept table'' := by
  intro i x hx
  obtain ⟨x', hx'⟩ := h i x hx
  exact h' i x' hx'

theorem Kept.add (x : α) : table.Kept (table.add x) :=
  fun _ y hy => ⟨y, get?_add_of_some hy x⟩

theorem Kept.update (i : Nat) (f : α → α) : table.Kept (table.update i f) := by
  intro j x hx
  rw [get?_update, hx]
  split
  · exact ⟨f x, rfl⟩
  · exact ⟨x, rfl⟩

end Table

/-- The client of a registry that fetches. -/
def Registry.client? : Registry → Option Client
  | document _ _ => none
  | keyed _ client => some client

@[simp] theorem Registry.client?_attach (r : Registry) (h : HandleId) (url : String) :
    (r.attach h url).client? = r.client? := by
  cases r with
  | document hs n => rfl
  | keyed entries client => rfl

@[simp] theorem Registry.client?_plant (r : Registry) (h : HandleId) (url : String) :
    (r.plant h url).client? = r.client? := by
  cases r with
  | document hs n => rfl
  | keyed entries client => rfl

@[simp] theorem Registry.client?_remove (r : Registry) (h : HandleId) (url : String) :
    (r.remove h url).client? = r.client? := by
  cases r with
  | document hs n => rfl
  | keyed entries client =>
    rw [remove]
    split
    · rfl
    · rfl

/-- Shutting a registry closes its client if it is its own. -/
theorem Registry.client?_shut (r : Registry) :
    r.shut.client? = r.client?.map fun c => { c with closed := c.closed || c.owned } := by
  cases r with
  | document hs n => rfl
  | keyed entries client => rfl

namespace Loader

/-- The active loads are the unsettled ones, and each of them has its handle. -/
structure Tended (l : Loader) : Prop where
  active_iff : ∀ a, a ∈ l.active ↔ ∃ x, l.attempts.get? a = some x ∧ x.settled = false
  watched : ∀ w ∈ l.watchdogs, w.attempt ∈ l.active
  served : ∀ a x, l.attempts.get? a = some x → x.settled = false →
    ∃ t handle, x.done = .redeem t ∧ t.chunk = x.chunk ∧ l.handles.get? x.handle = some handle
  /-- Only a client of the registry's own is ever closed. -/
  own : ∀ c, l.registry.client? = some c → c.closed = true → c.owned = true

variable {asked : ChunkId → Prop} {l l' : Loader}

namespace Tended

/-- Loads stay as they are. -/
theorem congr (i : Tended l) (hat : l'.attempts = l.attempts) (hac : l'.active = l.active)
    (hw : ∀ w ∈ l'.watchdogs, w ∈ l.watchdogs) (hh : l.handles.Kept l'.handles)
    (hr : l'.registry.client? = l.registry.client?) : Tended l' where
  active_iff := by rw [hac, hat]; exact i.active_iff
  watched := by
    intro w hm
    rw [hac]
    exact i.watched w (hw w hm)
  served := by
    intro a x ha hx
    rw [hat] at ha
    obtain ⟨t, handle, hd, hchunk, hrow⟩ := i.served a x ha hx
    obtain ⟨handle', hrow'⟩ := hh x.handle handle hrow
    exact ⟨t, handle', hd, hchunk, hrow'⟩
  own := by rw [hr]; exact i.own

/-- The same, where watchdogs, handles and the registry stay as they are too. -/
theorem same (i : Tended l) (hat : l'.attempts = l.attempts) (hac : l'.active = l.active)
    (hw : l'.watchdogs = l.watchdogs) (hh : l'.handles = l.handles)
    (hr : l'.registry = l.registry) : Tended l' :=
  i.congr hat hac (by rw [hw]; exact fun _ => id) (by rw [hh]; exact .refl) (by rw [hr])

/-- A load begins to wait. -/
theorem wait (i : Tended l) {x : Attempt} {t : Ticket} {due : Float} (hs : x.settled = false)
    (hd : x.done = .redeem t) (hc : t.chunk = x.chunk)
    (hat : l'.attempts = l.attempts.add x) (hac : l'.active = l.active ++ [l.attempts.size])
    (hw : l'.watchdogs = l.watchdogs ++ [⟨l.attempts.size, due⟩]) (hh : l.handles.Kept l'.handles)
    (hnew : ∃ handle, l'.handles.get? x.handle = some handle)
    (hr : l'.registry.client? = l.registry.client?) : Tended l' where
  active_iff := by
    intro a
    rw [hac, hat, List.mem_append, i.active_iff, Table.get?_add]
    by_cases ha : a = l.attempts.size
    · subst ha
      simp [hs]
    · simp [ha]
  watched := by
    intro w hm
    rw [hw] at hm
    rw [hac]
    rcases List.mem_append.mp hm with hm | hm
    · exact List.mem_append_left _ (i.watched w hm)
    · rw [List.mem_singleton.mp hm]
      exact List.mem_append_right _ (List.mem_singleton.mpr rfl)
  served := by
    intro a y ha hy
    rw [hat, Table.get?_add] at ha
    split at ha
    · cases ha
      obtain ⟨handle, hrow⟩ := hnew
      exact ⟨t, handle, hd, hc, hrow⟩
    · obtain ⟨t', handle, hd', hchunk, hrow⟩ := i.served a y ha hy
      obtain ⟨handle', hrow'⟩ := hh y.handle handle hrow
      exact ⟨t', handle', hd', hchunk, hrow'⟩
  own := by rw [hr]; exact i.own

/-- A load begins that has ended already. -/
theorem found (i : Tended l) {x : Attempt} (hs : x.settled = true)
    (hat : l'.attempts = l.attempts.add x)
    (hac : l'.active = l.active.filter (· ≠ l.attempts.size))
    (hw : l'.watchdogs = l.watchdogs.filter (·.attempt ≠ l.attempts.size))
    (hh : l.handles.Kept l'.handles) (hr : l'.registry.client? = l.registry.client?) : Tended l' where
  active_iff := by
    intro a
    rw [hac, hat, List.mem_filter, i.active_iff, Table.get?_add]
    by_cases ha : a = l.attempts.size
    · simp [ha, hs]
    · simp [ha]
  watched := by
    intro w hm
    rw [hw, List.mem_filter] at hm
    rw [hac, List.mem_filter]
    exact ⟨i.watched w hm.1, by simpa using hm.2⟩
  served := by
    intro a y ha hy
    rw [hat, Table.get?_add] at ha
    split at ha
    · cases ha
      rw [hs] at hy
      cases hy
    · obtain ⟨t', handle, hd', hchunk, hrow⟩ := i.served a y ha hy
      obtain ⟨handle', hrow'⟩ := hh y.handle handle hrow
      exact ⟨t', handle', hd', hchunk, hrow'⟩
  own := by rw [hr]; exact i.own

/-- A load ends. -/
theorem conclude (i : Tended l) {a : AttemptId}
    (hat : l'.attempts = l.attempts.update a ({ · with settled := true }))
    (hac : l'.active = l.active.filter (· ≠ a))
    (hw : l'.watchdogs = l.watchdogs.filter (·.attempt ≠ a))
    (hh : l.handles.Kept l'.handles) (hr : l'.registry.client? = l.registry.client?) : Tended l' := by
  have open_iff : ∀ b y, l'.attempts.get? b = some y ∧ y.settled = false ↔
      b ≠ a ∧ l.attempts.get? b = some y ∧ y.settled = false := by
    intro b y
    rw [hat, Table.get?_update]
    by_cases hb : a = b
    · subst hb
      simp only [if_true, ne_eq, not_true_eq_false, false_and, iff_false, not_and]
      intro hy
      obtain ⟨y', -, rfl⟩ := Option.map_eq_some_iff.mp hy
      simp
    · have hb' : b ≠ a := fun e => hb e.symm
      simp [hb, hb']
  refine
    { active_iff := fun b => ?_
      watched := fun w hm => ?_
      served := fun b y hb hy => ?_
      own := by rw [hr]; exact i.own }
  · rw [hac, List.mem_filter, i.active_iff]
    simp only [open_iff, decide_eq_true_eq]
    constructor
    · rintro ⟨⟨y, hy⟩, hb⟩
      exact ⟨y, hb, hy⟩
    · rintro ⟨y, hb, hy⟩
      exact ⟨⟨y, hy⟩, hb⟩
  · rw [hw, List.mem_filter] at hm
    rw [hac, List.mem_filter]
    exact ⟨i.watched w hm.1, by simpa using hm.2⟩
  · obtain ⟨-, hb', hy'⟩ := (open_iff b y).mp ⟨hb, hy⟩
    obtain ⟨t, handle, hd, hchunk, hrow⟩ := i.served b y hb' hy'
    obtain ⟨handle', hrow'⟩ := hh y.handle handle hrow
    exact ⟨t, handle', hd, hchunk, hrow'⟩

end Tended

theorem client?_remove (l : Loader) (h : HandleId) :
    (l.remove h).registry.client? = l.registry.client? := by
  unfold remove
  split
  · rfl
  · exact Registry.client?_remove ..

theorem Change.tended (h : Change asked l l') (i : Tended l) : Tended l' := by
  cases h with
  | kept h he ho =>
    obtain ⟨ready, hs⟩ := l.newPromise.1.settlePromise_eq l.newPromise.2 .ok
    rw [hs]
    exact i.same rfl rfl rfl rfl rfl
  | @abandoned t h =>
    unfold abandon
    split
    · exact i.same rfl rfl rfl rfl rfl
    · exact i
  | made chunk url => exact i.congr rfl rfl (fun _ => id) (.add _) rfl
  | @created resolve t url hc ht hw hr hf fetches asks =>
    have row : (l.handles.add (l.madeHandle t.chunk url)).get? l.handles.size =
        some (l.madeHandle t.chunk url) := Table.get?_add_size ..
    exact i.wait rfl rfl rfl rfl rfl rfl (.trans (.add (l.madeHandle t.chunk url)) (.update _ _))
      (Table.Kept.update _ _ _ _ row) (Registry.client?_attach ..)
  | @adopted t url h ht hf hl =>
    have row : ∃ x, l.handles.get? h = some x := by
      cases hx : l.handles.get? h with
      | none =>
        rw [hx] at hl
        cases hl
      | some x => exact ⟨x, rfl⟩
    obtain ⟨x, hx⟩ := row
    exact i.wait rfl rfl rfl rfl rfl rfl (.update _ _) (Table.Kept.update _ _ _ _ hx) rfl
  | found ht hf hl => exact i.found rfl rfl rfl rfl (.update _ _) rfl
  | @concluded a x ha hx e =>
    rw [detach_eq]
    refine i.conclude rfl rfl rfl (.update _ _) ?_
    show (l.registryAfter x.handle e).client? = _
    unfold registryAfter
    split
    · rfl
    · exact client?_remove ..
  | @settled t h e =>
    obtain ⟨ready, log, hs⟩ := l.settleEntry_eq t e
    rw [hs]
    exact i.same rfl rfl rfl rfl rfl
  | @aborted t h =>
    obtain ⟨o, ready, hs⟩ := l.abortEntry_eq t
    rw [hs]
    exact i.same rfl rfl rfl rfl rfl
  | _ => exact i.same rfl rfl rfl rfl rfl

theorem Act.tended {m : Move} (h : Act asked l m l') (i : Tended l) : Tended l' := by
  have inner : ∀ {l₁ : Loader}, Inner l l₁ → Tended l₁ := by
    rintro l₁ ⟨_, _, _, rfl⟩
    exact i.same rfl rfl rfl rfl rfl
  cases h with
  | work h => exact h.tended i
  | spare handle hs => exact i.congr rfl rfl (fun _ => id) (.add _) rfl
  | planted handle =>
    exact i.congr rfl rfl (fun _ => id) (.add _) (Registry.client?_plant ..)
  | attached h =>
    unfold attach
    split
    · exact i
    · split
      · split
        · exact i
        · exact i.congr rfl rfl (fun _ => id) .refl (Registry.client?_attach ..)
      · exact i.congr rfl rfl (fun _ => id) .refl (Registry.client?_attach ..)
  | removed h =>
    unfold remove
    split
    · exact i
    · exact i.congr rfl rfl (fun _ => id) .refl (Registry.client?_remove ..)
  | assigned h hf => exact i.congr rfl rfl (fun _ => id) (.update _ _) rfl
  | unloaded fetches closings hr hj =>
    refine { i with own := fun c hc hclosed => ?_ }
    rcases hr with rfl | rfl
    · exact i.own c hc hclosed
    · rw [Registry.client?_shut, Option.map_eq_some_iff] at hc
      obtain ⟨c', hc', rfl⟩ := hc
      rcases Bool.or_eq_true_iff.mp hclosed with h | h
      · exact i.own c' hc' h
      · exact h
  | cancelled p => exact inner (l.inner_cancelPromise p)
  | taskCancelled t => exact inner (l.inner_cancelTask t)
  | @told t p rest h => exact inner (l.inner_childSettled rest t p)
  | @woken t rest h => exact inner (l.inner_wakeTask rest t)
  | @awaited t chunks ps h hp => exact inner (l.inner_await t ps)
  | fired h => exact i.congr rfl rfl (fun _ hm => List.mem_of_mem_filter hm) .refl rfl
  | @reordered active hp =>
    exact { i with
      active_iff := fun a => hp.mem_iff.trans (i.active_iff a)
      watched := fun w hm => hp.mem_iff.mpr (i.watched w hm) }
  | _ => exact i.same rfl rfl rfl rfl rfl

theorem Leads.tended (h : Leads asked l l') (i : Tended l) : Tended l' := by
  induction h with
  | refl => exact i
  | tail _ hc ih => exact hc.tended ih

/-! ## §2 Winding down -/

/-- An active load is to settle the promise of a chunk, and waits for this handle. -/
def Attends (l : Loader) (a : AttemptId) (chunk : ChunkId) (p : PromiseId) (handle : Handle) :
    Prop :=
  a ∈ l.active ∧ ∃ h n,
    l.attempts.get? a = some { chunk, handle := h, done := .redeem ⟨chunk, p, n⟩ } ∧
      l.handles.get? h = some handle

/-- A load attends one promise only. -/
theorem Attends.eq {a : AttemptId} {k k' : ChunkId}
    {p p' : PromiseId} {x x' : Handle} (h : l.Attends a k p x) (h' : l.Attends a k' p' x') :
    k = k' ∧ p = p' := by
  obtain ⟨-, i, n, hrow, -⟩ := h
  obtain ⟨-, i', n', hrow', -⟩ := h'
  rw [hrow] at hrow'
  cases hrow'
  exact ⟨rfl, rfl⟩

/-- The address under which a promise is aborted: that of its load's handle, if it has a load. -/
def Addressed (l : Loader) (chunk : ChunkId) (p : PromiseId) : Option String → Prop
  | some url => ∃ a handle, l.Attends a chunk p handle ∧ handle.url = url
  | none => ∀ a handle, ¬l.Attends a chunk p handle

/-- How a shutdown ends an attempt. -/
def abortion (l : Loader) (chunk : ChunkId) (request : Option String) : Outcome :=
  .failed { chunk, cause := .aborted "abort", request, assetKind := l.plan.policy.assetKind }

theorem outcomeOf_abort {l₀ : Loader} (hp : l.plan = l₀.plan) (chunk : ChunkId) {e : LoadEvent}
    (he : e.type = "abort") : l.outcomeOf chunk e = l₀.abortion chunk e.request := by
  simp [outcomeOf, failureOf, abortion, LoadFailure.ofEvent, LoadFailure.causeOf, LoadEvent.isLoad,
    he, hp]

/-- How far a shutdown has got that began at `l₀`. -/
structure Winding (l₀ l : Loader) : Prop where
  plan : l.plan = l₀.plan
  handed : l.handed = l₀.handed
  closed : l.closed = l₀.closed
  urls : ∀ h, (l.handles.get? h).map (·.url) = (l₀.handles.get? h).map (·.url)
  loads : ∀ a x, l.attempts.get? a = some x → x.settled = false → l₀.attempts.get? a = some x
  final : ∀ chunk e, e.state ≠ .inFlight →
    (l.cache.find? chunk = some e ↔ l₀.cache.find? chunk = some e)
  tickets : ∀ chunk t, l.cache.ticketOf? chunk = some t → l₀.cache.ticketOf? chunk = some t
  onward : l₀.promises.Onward l.promises
  /-- A load that has ended has settled its promise, and its chunk is in flight no more. -/
  spent : ∀ a chunk p handle, l₀.Attends a chunk p handle → a ∉ l.active →
    ∀ t, l.cache.ticketOf? chunk = some t → t.promise ≠ p
  ended : ∀ chunk t, l₀.cache.ticketOf? chunk = some t → l₀.promises.isPending t.promise = true →
    l.cache.ticketOf? chunk = some t ∧ l.promises.isPending t.promise = true ∨
      ∃ request, l₀.Addressed chunk t.promise request ∧
        l.promises.outcome? t.promise = some (l₀.abortion chunk request)

namespace Winding

variable {l₀ : Loader}

theorem refl (l : Loader) : Winding l l where
  plan := rfl
  handed := rfl
  closed := rfl
  urls := fun _ => rfl
  loads := fun _ _ h _ => h
  final := fun _ _ _ => .rfl
  tickets := fun _ _ => id
  onward := .refl _
  spent := fun _ _ _ _ h hn => absurd h.1 hn
  ended := fun _ _ ht hp => .inl ⟨ht, hp⟩

/-- The log, the queue, the sink and the registry have no part in it. -/
theorem congr (c : Winding l₀ l) (hpl : l'.plan = l.plan) (hh : l'.handed = l.handed)
    (hcl : l'.closed = l.closed) (hu : l'.handles = l.handles) (hat : l'.attempts = l.attempts)
    (hac : l'.active = l.active) (hc : l'.cache = l.cache) (hp : l'.promises = l.promises) :
    Winding l₀ l' where
  plan := hpl.trans c.plan
  handed := hh.trans c.handed
  closed := hcl.trans c.closed
  urls := by rw [hu]; exact c.urls
  loads := by rw [hat]; exact c.loads
  final := by rw [hc]; exact c.final
  tickets := by rw [hc]; exact c.tickets
  onward := by rw [hp]; exact c.onward
  spent := by rw [hac, hc]; exact c.spent
  ended := by rw [hc, hp]; exact c.ended

/-- An attempt in flight is aborted. -/
theorem abort (c : Winding l₀ l) (w : Whole asked l) {t : Ticket}
    (h : l.cache.honours t = true) {request : Option String}
    (ha : l₀.Addressed t.chunk t.promise request) :
    Winding l₀ { l with
      cache := l.cache.drop t.chunk
      promises := l.promises.settle t.promise (l₀.abortion t.chunk request) } := by
  obtain ⟨entry, hentry, hprom⟩ := Cache.honours_iff.mp h
  have ticket : l.cache.ticketOf? t.chunk = some ⟨t.chunk, entry.promise, entry.attempt⟩ :=
    Cache.ticketOf?_eq_some.mpr ⟨entry, hentry, rfl⟩
  have left : ∀ k t', (l.cache.drop t.chunk).ticketOf? k = some t' →
      k ≠ t.chunk ∧ l.cache.ticketOf? k = some t' := by
    intro k t' ht'
    rw [Cache.ticketOf?_drop] at ht'
    split at ht'
    · cases ht'
    · rename_i hk
      exact ⟨hk, ht'⟩
  refine
    { c with
      final := fun k e he => ?_
      tickets := fun k t' ht' => c.tickets k t' (left k t' ht').2
      onward := c.onward.trans (.settle _ _ _)
      spent := fun a k p handle hat hn t' ht' => c.spent a k p handle hat hn t' (left k t' ht').2
      ended := fun k t' ht' hp => ?_ }
  · rw [Cache.find?_drop]
    split
    · rename_i hk
      subst hk
      rw [← c.final _ e he, hentry]
      refine ⟨nofun, fun heq => ?_⟩
      cases heq
      exact absurd rfl he
    · exact c.final k e he
  · rcases c.ended k t' ht' hp with ⟨hk, hpend⟩ | ⟨request', haddr, ho⟩
    · by_cases hchunk : k = t.chunk
      · subst hchunk
        rw [ticket] at hk
        cases hk
        refine .inr ⟨request, hprom ▸ ha, ?_⟩
        change (l.promises.settle t.promise _).outcome? entry.promise = _
        rw [hprom]
        exact Promises.outcome?_settle_of_isPending (hprom ▸ hpend) _
      · -- The promise of another chunk's attempt is another promise.
        refine .inl ⟨?_, ?_⟩
        · change (l.cache.drop t.chunk).ticketOf? k = some t'
          rw [Cache.ticketOf?_drop, if_neg hchunk]
          exact hk
        · change (l.promises.settle t.promise _).isPending t'.promise = true
          have hne : t'.promise ≠ t.promise := fun heq =>
            hchunk (w.distinct k t.chunk t' _ hk ticket (heq.trans hprom.symm))
          rw [Promises.isPending_settle, hpend, decide_eq_true hne]
          rfl
    · exact .inr ⟨request', haddr, Promises.outcome?_settle_of_some ho⟩

/-- A load has ended, and its attempt is in flight no more. -/
theorem conclude (c : Winding l₀ l) {a : AttemptId} {h : HandleId}
    (spent : ∀ chunk p handle, l₀.Attends a chunk p handle →
      ∀ t, l.cache.ticketOf? chunk = some t → t.promise ≠ p)
    (hpl : l'.plan = l.plan) (hh : l'.handed = l.handed) (hcl : l'.closed = l.closed)
    (hu : l'.handles = l.handles.update h (·.release))
    (hat : l'.attempts = l.attempts.update a ({ · with settled := true }))
    (hac : l'.active = l.active.filter (· ≠ a)) (hc : l'.cache = l.cache)
    (hp : l'.promises = l.promises) : Winding l₀ l' where
  plan := hpl.trans c.plan
  handed := hh.trans c.handed
  closed := hcl.trans c.closed
  urls := by
    intro i
    rw [← c.urls i, hu, Table.get?_update]
    split
    · rw [Option.map_map]
      rfl
    · rfl
  loads := by
    intro b y hb hy
    rw [hat, Table.get?_update] at hb
    split at hb
    · obtain ⟨y', -, rfl⟩ := Option.map_eq_some_iff.mp hb
      cases hy
    · exact c.loads b y hb hy
  final := by rw [hc]; exact c.final
  tickets := by rw [hc]; exact c.tickets
  onward := by rw [hp]; exact c.onward
  spent := by
    intro b k p handle hb hn t ht
    rw [hc] at ht
    by_cases hab : b = a
    · subst hab
      exact spent k p handle hb t ht
    · refine c.spent b k p handle hb (fun hm => hn ?_) t ht
      rw [hac, List.mem_filter]
      exact ⟨hm, by simpa using hab⟩
  ended := by rw [hc, hp]; exact c.ended

/-- An active load was so when the shutdown began. -/
theorem attends (c : Winding l₀ l) (i₀ : Tended l₀) {a : AttemptId} {x : Attempt} {t : Ticket}
    {handle : Handle} (ha : l.attempts.get? a = some x) (hx : x.settled = false)
    (hd : x.done = .redeem t) (hc : t.chunk = x.chunk)
    (hrow : l.handles.get? x.handle = some handle) :
    ∃ handle₀, l₀.Attends a t.chunk t.promise handle₀ ∧ handle₀.url = handle.url := by
  have row := c.loads a x ha hx
  obtain ⟨-, handle₀, -, -, hrow₀⟩ := i₀.served a x row hx
  refine ⟨handle₀, ⟨(i₀.active_iff a).mpr ⟨x, row, hx⟩, x.handle, t.attempt, ?_, hrow₀⟩, ?_⟩
  · obtain ⟨chunk, h, done, settled⟩ := x
    cases hc
    cases hd
    cases hx
    exact row
  · have url := c.urls x.handle
    rw [hrow, hrow₀] at url
    exact (Option.some.inj url).symm

/-- A shutdown ends one load, which is told where its handle is. -/
theorem settleLoad (c : Winding l₀ l) (i₀ : Tended l₀) (w : Whole asked l) (i : Tended l)
    (a : AttemptId) (h : l.settleLoad a (l.endSignal a "abort") = (l', .through)) :
    Winding l₀ l' ∧ l'.active = l.active.filter (· ≠ a) := by
  have idle : (∀ x, l.attempts.get? a = some x → x.settled = true) →
      l.active = l.active.filter (· ≠ a) := by
    intro hs
    refine (List.filter_eq_self.mpr fun b hb => ?_).symm
    obtain ⟨x, hx, hopen⟩ := (i.active_iff b).mp hb
    by_cases hab : b = a
    · subst hab
      rw [hs x hx] at hopen
      cases hopen
    · simpa using hab
  cases ha : l.attempts.get? a with
  | none =>
    have heq : l = l' := by simpa [Loader.settleLoad, signal, ha] using h
    subst heq
    exact ⟨c, idle fun x hx => by rw [ha] at hx; cases hx⟩
  | some x =>
    cases hx : x.settled with
    | true =>
      have heq : l = l' := by simpa [Loader.settleLoad, signal, ha, hx] using h
      subst heq
      exact ⟨c, idle fun y hy => by rw [ha] at hy; cases hy; exact hx⟩
    | false =>
      obtain ⟨sink, log, refusal, hcon⟩ := l.conclude_shape a x (l.endSignal a "abort")
      obtain ⟨t, handle, hd, hchunk, hrow⟩ := i.served a x ha hx
      cases refusal with
      | some f => simp [Loader.settleLoad, signal, ha, hx, hcon] at h
      | none =>
        obtain ⟨l₁, h₁⟩ : ∃ l₁, l₁ = { l.detach a x.handle (l.endSignal a "abort") with sink, log } :=
          ⟨_, rfl⟩
        rw [← h₁] at hcon
        rw [detach_eq] at h₁
        have cache : l₁.cache = l.cache := by rw [h₁]
        have redeemed : l₁.redeem t (l.endSignal a "abort") = l' := by
          simpa [Loader.settleLoad, signal, ha, hx, hcon, hd] using h
        obtain ⟨handle₀, attends, url⟩ := c.attends i₀ ha hx hd hchunk hrow
        have request : (l.endSignal a "abort").request = some handle.url := by
          simp [endSignal, ha, sourceOf, hrow, LoadEvent.request]
        cases hh : l.cache.honours t with
        | true =>
          have addressed : l₀.Addressed t.chunk t.promise (some handle.url) :=
            ⟨a, handle₀, attends, url⟩
          have ended := c.abort w hh addressed
          rw [redeem_of_honours (cache ▸ hh)] at redeemed
          obtain ⟨ready, log', hs⟩ := l₁.settleEntry_eq t (l.endSignal a "abort")
          have plan : l₁.plan = l₀.plan := by rw [h₁]; exact c.plan
          rw [hs, outcomeOf_abort plan t.chunk rfl, request] at redeemed
          subst h₁ redeemed
          refine ⟨ended.conclude (fun k p x' hx' t' ht' => ?_) rfl rfl rfl rfl rfl rfl rfl rfl, rfl⟩
          obtain ⟨rfl, -⟩ := hx'.eq attends
          change (l.cache.drop t.chunk).ticketOf? t.chunk = some t' at ht'
          rw [Cache.ticketOf?_drop, if_pos rfl] at ht'
          cases ht'
        | false =>
          obtain ⟨log', hs⟩ := redeem_of_not_honours (cache ▸ hh) (l.endSignal a "abort")
          rw [hs] at redeemed
          subst h₁ redeemed
          refine ⟨c.conclude (fun k p x' hx' t' ht' heq => ?_) rfl rfl rfl rfl rfl rfl rfl rfl, rfl⟩
          obtain ⟨rfl, rfl⟩ := hx'.eq attends
          obtain ⟨entry, hentry, rfl⟩ := Cache.ticketOf?_eq_some.mp ht'
          rw [Cache.honours_iff.mpr ⟨entry, hentry, heq⟩] at hh
          cases hh

/-- A shutdown that gets through has ended every load it began with. -/
theorem abortAll (attempts : List AttemptId) (c : Winding l₀ l) (i₀ : Tended l₀)
    (w : Whole asked l) (i : Tended l) (h : Loader.abortAll attempts l = (l', .through)) :
    Winding l₀ l' ∧ Whole asked l' ∧ Tended l' ∧
      ∀ b ∈ l'.active, b ∈ l.active ∧ b ∉ attempts := by
  induction attempts generalizing l with
  | nil =>
    cases h
    exact ⟨c, w, i, fun b hb => ⟨hb, by simp⟩⟩
  | cons a rest ih =>
    obtain ⟨l₁, h₁, hs | ⟨f, hs⟩⟩ := w.leads_settleLoad a (l.endSignal a "abort")
    · simp only [Loader.abortAll, hs] at h
      obtain ⟨c₁, active⟩ := c.settleLoad i₀ w i a hs
      obtain ⟨c', w', i', left⟩ := ih c₁ (h₁.whole w) (h₁.tended i) h
      refine ⟨c', w', i', fun b hb => ?_⟩
      obtain ⟨hb₁, hrest⟩ := left b hb
      rw [active, List.mem_filter] at hb₁
      have hba : b ≠ a := by simpa using hb₁.2
      exact ⟨hb₁.1, fun hm => (List.mem_cons.mp hm).elim hba hrest⟩
    · simp only [Loader.abortAll, hs] at h
      cases h

/-- What is in flight when no load waits any more is aborted without an address. -/
theorem closeCache (c : Winding l₀ l) (w : Whole asked l) (hac : l.active = []) :
    Winding l₀ l.closeCache := by
  refine (w.closeCache_keeps (I := fun l => Winding l₀ l ∧ l.active = []) (fun l t w ht i => ?_)
    ⟨c, hac⟩).1
  obtain ⟨c, hac⟩ := i
  obtain ⟨entry, hentry, hprom⟩ := Cache.honours_iff.mp ht
  have alone : l₀.Addressed t.chunk t.promise none := by
    intro a handle h
    refine c.spent a t.chunk t.promise handle h (by rw [hac]; exact List.not_mem_nil) _
      (Cache.ticketOf?_eq_some.mpr ⟨entry, hentry, rfl⟩) hprom
  obtain ⟨ready, hs⟩ := settlePromise_eq { l with cache := l.cache.drop t.chunk } t.promise
    (l₀.abortion t.chunk none)
  have same : l.abortion t.chunk none = l₀.abortion t.chunk none := by
    unfold abortion
    rw [c.plan]
  have aborted : l.abortEntry t = { l with cache := l.cache.drop t.chunk }.settlePromise t.promise
      (l.abortion t.chunk none) := rfl
  rw [aborted, same, hs]
  exact ⟨(c.abort w ht alone).congr rfl rfl rfl rfl rfl rfl rfl rfl, hac⟩

end Winding

/-! ## §3 What a shutdown comes to -/

/-- What a shutdown makes of the loads and the cache, before it turns to the registry. -/
structure Shut (l l' : Loader) : Prop where
  closed : l'.closed = true
  handed : l'.handed = l.handed
  /-- Every promise that a request was answered with has an outcome. -/
  done : ∀ chunk p, (chunk, p) ∈ l'.handed → ∃ o, l'.promises.outcome? p = some o
  kept : ∀ p o, l.promises.outcome? p = some o → l'.promises.outcome? p = some o
  /-- A promise that was pending ends as aborted, with the address of its load's handle. -/
  aborted : ∀ chunk p, (chunk, p) ∈ l.handed → l.promises.isPending p = true →
    ∃ request, l.Addressed chunk p request ∧
      l'.promises.outcome? p = some (l.abortion chunk request)
  landed : l'.cache.inFlight = []
  /-- Chunks that are loaded or skipped stay so. -/
  states : ∀ chunk, l'.cache.find? chunk =
    if l.cache.state chunk = .inFlight then none else l.cache.find? chunk
  idle : l'.active = []
  unwatched : l'.watchdogs = []

/-- What fetches and shutdowns do has no part in it. -/
theorem Shut.unloads {l'' : Loader} (h : Shut l l') (h' : Unloads l' l'') : Shut l l'' := by
  obtain ⟨fetches, closings, registry, jobs, rfl, -, -⟩ := h'
  exact { h with }

/-- After the cache is closed no chunk is in flight. -/
theorem ticketOf?_closeCache (h : l.cache.Single) (chunk : ChunkId) :
    l.closeCache.cache.ticketOf? chunk = none := by
  obtain ⟨cache, promises, ready, heq, -, -, find, -⟩ := closeCache_eq h
  rw [Option.eq_none_iff_forall_ne_some]
  intro t ht
  obtain ⟨entry, hentry, -⟩ := Cache.ticketOf?_eq_some.mp ht
  rw [heq] at hentry
  rw [find] at hentry
  split at hentry
  · cases hentry
  · rename_i hk
    exact hk (Option.isSome_iff_exists.mpr ⟨_, Cache.ticketOf?_eq_some.mpr ⟨entry, hentry, rfl⟩⟩)

/-- Where nothing is in flight any more and final entries are as before, that is what is left. -/
theorem find?_of_landed {c c' : Cache} (landed : ∀ k, c'.ticketOf? k = none)
    (final : ∀ k e, e.state ≠ .inFlight → (c'.find? k = some e ↔ c.find? k = some e))
    (k : ChunkId) : c'.find? k = if c.state k = .inFlight then none else c.find? k := by
  have lands : ∀ e, c'.find? k = some e → e.state ≠ .inFlight := by
    intro e he hs
    cases e with
    | inFlight p =>
      have ticket := landed k
      rw [Cache.ticketOf?_eq_some.mpr ⟨p, he, rfl⟩] at ticket
      cases ticket
    | skipped => cases hs
    | loaded => cases hs
  by_cases hs : c.state k = .inFlight
  · rw [if_pos hs, Option.eq_none_iff_forall_ne_some]
    intro e he
    have hold := (final k e (lands e he)).mp he
    exact lands e he (by simpa [Cache.state, hold] using hs)
  · rw [if_neg hs]
    ext e
    constructor
    · exact fun he => (final k e (lands e he)).mp he
    · exact fun he => (final k e (by simpa [Cache.state, he] using hs)).mpr he

/-- Where no chunk is in flight, every promise that a request was answered with has an outcome. -/
theorem Whole.exists_outcome? (w : Whole asked l) (landed : ∀ k, l.cache.ticketOf? k = none)
    {chunk : ChunkId} {p : PromiseId} (hm : (chunk, p) ∈ l.handed) :
    ∃ o, l.promises.outcome? p = some o := by
  cases hp : l.promises.isPending p with
  | true =>
    obtain ⟨t, ht, -⟩ := w.awaited chunk p hm hp
    rw [landed] at ht
    cases ht
  | false => exact Promises.exists_outcome? (w.bounded chunk p hm) hp

/-- When a shutdown has got through the loads, the cache is left with nothing in flight. -/
theorem Winding.shut (c : Winding l l') (hcl : l.closed = true) (w : Whole asked l)
    (w' : Whole asked l') (i' : Tended l') (hac : l'.active = []) :
    Shut l l'.closeCache ∧ Tended l'.closeCache := by
  have c₁ := c.closeCache w' hac
  have w₁ : Whole asked l'.closeCache := w'.leads_closeCache.whole w'
  have i₁ : Tended l'.closeCache := w'.leads_closeCache.tended i'
  have idle : l'.closeCache.active = [] := by
    obtain ⟨cache, promises, ready, heq, -⟩ := closeCache_eq w'.single
    rw [heq]
    exact hac
  have landed := ticketOf?_closeCache w'.single
  refine ⟨?_, i₁⟩
  refine
    { closed := c₁.closed.trans hcl
      handed := c₁.handed
      done := fun chunk p hm => w₁.exists_outcome? landed hm
      kept := c₁.onward.keep
      aborted := fun chunk p hm hp => ?_
      landed := w₁.single.inFlight_eq_nil landed
      states := find?_of_landed landed c₁.final
      idle
      unwatched := ?_ }
  · obtain ⟨t, ht, rfl⟩ := w.awaited chunk p hm hp
    rcases c₁.ended chunk t ht hp with ⟨hk, -⟩ | ended
    · rw [landed] at hk
      cases hk
    · exact ended
  · rw [List.eq_nil_iff_forall_not_mem]
    intro watchdog hm
    have hactive := i₁.watched watchdog hm
    rw [idle] at hactive
    cases hactive

/-! ## §4 Nothing can end any more -/

/-- A loader that was shut down: no load waits, and nothing is in flight. -/
structure Inert (l : Loader) : Prop where
  closed : l.closed = true
  idle : l.active = []
  unwatched : l.watchdogs = []
  settled : ∀ a x, l.attempts.get? a = some x → x.settled = true
  landed : ∀ chunk, l.cache.ticketOf? chunk = none

theorem Inert.unloads (i : Inert l) (h : Unloads l l') : Inert l' := by
  obtain ⟨fetches, closings, registry, jobs, rfl, -, -⟩ := h
  exact { i with }

/-- No load begins or ends, no request is answered, and entries change by marks only. -/
structure Quiet (m : Move) (l l' : Loader) : Prop where
  closed : l'.closed = l.closed
  attempts : l'.attempts = l.attempts
  active : l'.active = l.active
  watchdogs : l'.watchdogs = l.watchdogs
  handed : l'.handed = l.handed
  cache : (∀ chunk e, m ≠ .invoke (.mark chunk e)) → l'.cache = l.cache
  entries : ∀ chunk e, l.cache.find? chunk = some e → l'.cache.find? chunk = some e
  tickets : ∀ chunk, l'.cache.ticketOf? chunk = l.cache.ticketOf? chunk
  /-- No fetch begins but that of a handle which is attached by hand. -/
  fetches : (∀ h, m ≠ .invoke (.attach h)) → ∀ f, l.fetches.get? f = none → l'.fetches.get? f = none

namespace Quiet

variable {m : Move}

theorem same (hcl : l'.closed = l.closed) (hat : l'.attempts = l.attempts)
    (hac : l'.active = l.active) (hw : l'.watchdogs = l.watchdogs) (hh : l'.handed = l.handed)
    (hc : l'.cache = l.cache) (hf : l'.fetches = l.fetches) : Quiet m l l' where
  closed := hcl
  attempts := hat
  active := hac
  watchdogs := hw
  handed := hh
  cache := fun _ => hc
  entries := by rw [hc]; exact fun _ _ => id
  tickets := by rw [hc]; exact fun _ => rfl
  fetches := by rw [hf]; exact fun _ _ => id

theorem refl (m : Move) (l : Loader) : Quiet m l l :=
  .same rfl rfl rfl rfl rfl rfl rfl

theorem trans {l'' : Loader} (h : Quiet m l l') (h' : Quiet m l' l'') : Quiet m l l'' where
  closed := h'.closed.trans h.closed
  attempts := h'.attempts.trans h.attempts
  active := h'.active.trans h.active
  watchdogs := h'.watchdogs.trans h.watchdogs
  handed := h'.handed.trans h.handed
  cache := fun hm => (h'.cache hm).trans (h.cache hm)
  entries := fun chunk e he => h'.entries chunk e (h.entries chunk e he)
  tickets := fun chunk => (h'.tickets chunk).trans (h.tickets chunk)
  fetches := fun hm f hf => h'.fetches hm f (h.fetches hm f hf)

theorem inert (h : Quiet m l l') (i : Inert l) : Inert l' where
  closed := h.closed.trans i.closed
  idle := h.active.trans i.idle
  unwatched := h.watchdogs.trans i.unwatched
  settled := by rw [h.attempts]; exact i.settled
  landed := fun chunk => (h.tickets chunk).trans (i.landed chunk)

end Quiet

theorem Inert.not_honours (i : Inert l) (t : Ticket) : l.cache.honours t = false := by
  rw [← Bool.not_eq_true]
  intro h
  obtain ⟨entry, hentry, -⟩ := Cache.honours_iff.mp h
  have ticket := i.landed t.chunk
  rw [Cache.ticketOf?_eq_some.mpr ⟨entry, hentry, rfl⟩] at ticket
  cases ticket

/-- Work needs an open loader, an attempt in flight or an unsettled load; there is none. -/
theorem Change.quiet (h : Change asked l l') (i : Inert l) (m : Move) : Quiet m l l' := by
  have opened : l.closed ≠ false := by
    rw [i.closed]
    simp
  have landed : ∀ {t : Ticket}, l.cache.ticketOf? t.chunk ≠ some t := by
    intro t
    rw [i.landed]
    simp
  cases h with
  | used ho => exact absurd ho opened
  | skipped chunk ho => exact absurd ho opened
  | joined h ho => exact absurd ho opened
  | kept h he ho => exact absurd ho opened
  | begun h ho => exact absurd ho opened
  | handed h ho => exact absurd ho opened
  | @abandoned t h =>
    unfold abandon
    rw [i.not_honours]
    exact .refl _ l
  | created hc ht => exact absurd ht landed
  | adopted ht => exact absurd ht landed
  | found ht => exact absurd ht landed
  | @concluded a x ha hx e =>
    rw [i.settled a x ha] at hx
    cases hx
  | @settled t h e =>
    rw [i.not_honours] at h
    cases h
  | @aborted t h =>
    rw [i.not_honours] at h
    cases h
  | _ => exact .same rfl rfl rfl rfl rfl rfl rfl

theorem Act.quiet {m : Move} (h : Act asked l m l') (i : Inert l) : Quiet m l l' := by
  have inner : ∀ {l₁ : Loader}, Inner l l₁ → Quiet m l l₁ := by
    rintro l₁ ⟨_, _, _, rfl⟩
    exact .same rfl rfl rfl rfl rfl rfl rfl
  cases h with
  | work h => exact h.quiet i m
  | @marked chunk e he =>
    exact
      { closed := rfl
        attempts := rfl
        active := rfl
        watchdogs := rfl
        handed := rfl
        cache := fun hm => absurd rfl (hm chunk e)
        entries := fun k e' hk => Cache.find?_mark_of_some hk e
        tickets := fun k => Cache.ticketOf?_mark _ chunk k he
        fetches := fun _ _ => id }
  | closing => exact .same i.closed.symm rfl rfl rfl rfl rfl rfl
  | attached h =>
    obtain ⟨_, _, _, heq⟩ := l.outer_attach h
    rw [heq]
    exact
      { Quiet.refl _ l with
        fetches := fun hm => absurd rfl (hm h) }
  | removed h =>
    unfold remove
    split
    · exact .refl _ l
    · exact .same rfl rfl rfl rfl rfl rfl rfl
  | unloaded fetches closings hr hj hf =>
    refine
      { Quiet.refl _ l with
        fetches := fun _ f hnone => ?_ }
    have same := hf f
    rw [hnone] at same
    exact Option.map_eq_none_iff.mp same
  | cancelled p => exact inner (l.inner_cancelPromise p)
  | taskCancelled t => exact inner (l.inner_cancelTask t)
  | @told t p rest h => exact inner (l.inner_childSettled rest t p)
  | @woken t rest h => exact inner (l.inner_wakeTask rest t)
  | @awaited t chunks ps h hp => exact inner (l.inner_await t ps)
  | @fired target w h =>
    obtain ⟨hm, -⟩ := nextDue?_mem h
    rw [i.unwatched] at hm
    cases hm
  | @reordered active hp =>
    have hnil : active = l.active := by
      rw [i.idle] at hp ⊢
      exact hp.eq_nil
    exact .same rfl rfl hnil rfl rfl rfl rfl
  | _ => exact .same rfl rfl rfl rfl rfl rfl rfl

end Loader

/-! ## §5 Uses -/

namespace Run

open Loader (Whole Tended Inert Quiet Shut)

variable {asked : ChunkId → Prop} {r : Run}

/-- Shutting down gets through the loads and the cache, or stops at a refused count. -/
theorem Rested.step_close (h : r.Rested asked) (ho : r.loader.closed = false) :
    (∃ l, Loader.abortAll r.loader.active r.loader.closing = (l, .through) ∧
      r.step (.invoke .close) =
        { r with
          loader := l.closeCache.closeRegistry r.loader.closings.size
          answers := r.answers ++ [.closing r.loader.closings.size] }) ∨
    ∃ l f, Loader.abortAll r.loader.active r.loader.closing = (l, .fails f) ∧
      r.step (.invoke .close) =
        { r with loader := l.setClosing r.loader.closings.size (.over (.fault f)) } := by
  have w : Whole asked r.loader.closing := h.whole.congr rfl rfl rfl rfl rfl rfl
  have invoked := Loader.invoke_close ho
  obtain ⟨l, -, hs | ⟨f, hs⟩⟩ := w.leads_abortAll r.loader.active
  · exact .inl ⟨l, hs, by simp [step, invoked, Loader.drive, Loader.perform, hs, after]⟩
  · exact .inr ⟨l, f, hs, by
      simp [step, invoked, Loader.drive, Loader.perform, hs, Loader.unwind, after]⟩

/-- A shutdown begins that gets through the loads and the cache, and goes on with the registry. -/
def ShutsDown (r : Run) : Prop :=
  (r.step (.invoke .close)).answers = r.answers ++ [.closing r.loader.closings.size]

theorem Rested.step_of_shutsDown (h : r.Rested asked) (ho : r.loader.closed = false)
    (hd : r.ShutsDown) :
    ∃ l, Loader.abortAll r.loader.active r.loader.closing = (l, .through) ∧
      r.step (.invoke .close) =
        { r with
          loader := l.closeCache.closeRegistry r.loader.closings.size
          answers := r.answers ++ [.closing r.loader.closings.size] } := by
  rcases h.step_close ho with through | ⟨l, f, -, heq⟩
  · exact through
  · unfold ShutsDown at hd
    rw [heq] at hd
    exact absurd hd (by simp)

/-- A use after a shutdown: nothing that is done can change what has become of chunks. -/
structure Over (r : Run) : Prop where
  landed : r.loader.cache.inFlight = []
  idle : r.loader.active = []
  unwatched : r.loader.watchdogs = []
  /-- No load is left whose end could be told. -/
  settled : ∀ a x, r.loader.attempts.get? a = some x → x.settled = true
  done : ∀ chunk p, (chunk, p) ∈ r.loader.handed → ∃ o, r.loader.promises.outcome? p = some o
  /-- Requests are refused, and change nothing. -/
  refuses : ∀ chunk, r.loader.invoke (.request chunk) = (r.loader, .error .closed) ∧
    r.step (.invoke (.request chunk)) = r
  /-- A task that asks for a chunk ends by that refusal. -/
  collects : ∀ t got chunk rest, Loader.collect t got (chunk :: rest) r.loader =
    (r.loader.endTask t (.fault .closed), .through)
  again : r.step (.invoke .close) = { r with answers := r.answers ++ [.nothing] }
  /-- Whatever is done, no load begins or ends, and every promise keeps its outcome. -/
  quiet : ∀ m : Move, m.Outer → (r.step m).loader.attempts = r.loader.attempts ∧
    (r.step m).loader.handed = r.loader.handed ∧
      ∀ p o, r.loader.promises.outcome? p = some o →
        (r.step m).loader.promises.outcome? p = some o
  /-- Only to mark a chunk changes states, and only the one of a chunk that is unknown. -/
  states : ∀ m : Move, m.Outer →
    ((∀ chunk e, m ≠ .invoke (.mark chunk e)) → (r.step m).loader.cache = r.loader.cache) ∧
      ∀ chunk e, r.loader.cache.find? chunk = some e →
        (r.step m).loader.cache.find? chunk = some e

theorem Rested.quiet (h : r.Rested asked) (i : r.loader.Inert) {m : Move} (hm : m.Outer)
    (ha : m.Asks asked) : Quiet m r.loader (r.step m).loader :=
  ((h.acts hm ha).1.keeps
    (fun _ _ _ ha (q : Quiet m r.loader _) => q.trans (ha.quiet (q.inert i)))
    h.whole (.refl m r.loader))

theorem Rested.over (h : r.Rested fun _ => True) (i : r.loader.Inert) : r.Over where
  landed := h.whole.single.inFlight_eq_nil i.landed
  idle := i.idle
  unwatched := i.unwatched
  settled := i.settled
  done := fun chunk p hm => h.whole.exists_outcome? i.landed hm
  refuses := by
    intro chunk
    have refused : r.loader.invoke (.request chunk) = (r.loader, .error .closed) := by
      simp [Loader.invoke, Loader.request, i.closed]
    exact ⟨refused, by simp [step, refused]⟩
  collects := by
    intro t got chunk rest
    simp [Loader.collect, Loader.request, i.closed]
  again := by simp [step, Loader.invoke, i.closed, Loader.atOnce, Loader.drive, after]
  quiet := by
    intro m hm
    have q := h.quiet i hm (Move.asks_all m)
    refine ⟨q.attempts, q.handed, ?_⟩
    have onward := (h.acts hm (Move.asks_all m)).1.keeps
      (fun _ _ _ ha (o : r.loader.promises.Onward _) => o.trans ha.onward.1) h.whole (.refl _)
    exact onward.keep
  states := fun m hm =>
    ⟨(h.quiet i hm (Move.asks_all m)).cache, (h.quiet i hm (Move.asks_all m)).entries⟩

/-- What a shutdown does to loads and the cache; `steady` says that the sink refuses no count. -/
structure EndsLoads (steady : Prop) (r : Run) : Prop where
  goes_on : steady → r.ShutsDown
  /-- Every promise that was pending has its load, whose handle's address its failure names. -/
  addressed : steady → ∀ chunk p, (chunk, p) ∈ r.loader.handed →
    r.loader.promises.isPending p = true →
      ∃ a handle, r.loader.Attends a chunk p handle ∧
        (r.step (.invoke .close)).loader.promises.outcome? p =
          some (r.loader.abortion chunk (some handle.url))
  /-- A shutdown that gets through the loads leaves nobody waiting. -/
  shut : r.ShutsDown → Shut r.loader (r.step (.invoke .close)).loader
  /-- After it, nothing can bring anything back. -/
  after : r.ShutsDown →
    ∀ ms : List Move, (∀ m ∈ ms, m.Outer) → ((r.step (.invoke .close)).steps ms).Over

theorem Rested.over_steps (h : r.Rested fun _ => True) (i : r.loader.Inert) {ms : List Move}
    (hms : ∀ m ∈ ms, m.Outer) : (r.steps ms).Over := by
  have reach : Reachable (fun _ m => m.Outer) r (r.steps ms) :=
    Reachable.start.steps ms fun _ m hm => hms m hm
  obtain ⟨rested, inert⟩ := Rested.of_reachable (I := Inert)
    (fun _ m hm => ⟨hm, m.asks_all⟩) (fun _ _ _ _ _ _ ha i => (ha.quiet i).inert i) h i reach
  exact rested.over inert

/-- A shutdown that gets through the loads leaves the loader shut and inert. -/
theorem Rested.shut (h : r.Rested fun _ => True) (i : r.loader.Tended) {l : Loader}
    (hs : Loader.abortAll r.loader.active r.loader.closing = (l, .through)) :
    Shut r.loader l.closeCache ∧ Inert l.closeCache := by
  have w : Whole (fun _ => True) r.loader.closing := h.whole.congr rfl rfl rfl rfl rfl rfl
  have tended : Tended r.loader.closing := i.same rfl rfl rfl rfl rfl
  obtain ⟨c, w', i', left⟩ :=
    (Loader.Winding.refl r.loader.closing).abortAll r.loader.active tended w tended hs
  have idle : l.active = [] := by
    rw [List.eq_nil_iff_forall_not_mem]
    exact fun b hb => (left b hb).2 (left b hb).1
  obtain ⟨shut, i₁⟩ := c.shut rfl w w' i' idle
  refine ⟨{ shut with },
    { closed := shut.closed
      idle := shut.idle
      unwatched := shut.unwatched
      settled := fun a x hx => ?_
      landed := Loader.ticketOf?_closeCache w'.single }⟩
  rw [← Bool.not_eq_false]
  intro hopen
  have hm := (i₁.active_iff a).mpr ⟨x, hx, hopen⟩
  rw [shut.idle] at hm
  cases hm

/-- A shutdown that gets through the loads leaves the loader shut and inert, though it goes on. -/
theorem Rested.shut_close (h : r.Rested fun _ => True) (i : r.loader.Tended)
    (ho : r.loader.closed = false) (hd : r.ShutsDown) :
    Shut r.loader (r.step (.invoke .close)).loader ∧ Inert (r.step (.invoke .close)).loader := by
  obtain ⟨l, habort, heq⟩ := h.step_of_shutsDown ho hd
  obtain ⟨shut, inert⟩ := h.shut i habort
  have gone : Loader.Unloads l.closeCache
      (l.closeCache.closeRegistry r.loader.closings.size) := .closeRegistry _ _
  rw [heq]
  exact ⟨shut.unloads gone, inert.unloads gone⟩

theorem Rested.endsLoads {steady : Prop} (h : r.Rested fun _ => True) (i : r.loader.Tended)
    (ho : r.loader.closed = false) (hs : steady → r.Settled) : r.EndsLoads steady := by
  have goesOn : steady → r.ShutsDown := by
    intro st
    have coupled : Loader.Coupled r.loader.closing none none :=
      (hs st).coupled.congr rfl rfl rfl rfl rfl rfl rfl rfl
    obtain ⟨l, habort, -⟩ := coupled.abortAll r.loader.active
    rcases h.step_close ho with ⟨l', -, heq⟩ | ⟨l', f, habort', -⟩
    · unfold ShutsDown
      rw [heq]
    · rw [habort] at habort'
      cases habort'
  refine
    { goes_on := goesOn
      addressed := fun st chunk p hm hp => ?_
      shut := fun hd => (h.shut_close i ho hd).1
      after := fun hd ms hms => ?_ }
  · obtain ⟨a, ha, handleId, n, hrow⟩ := (hs st).coupled.layered.served chunk p hm hp
    obtain ⟨-, handle, -, -, hhandle⟩ := i.served a _ hrow rfl
    have attends : r.loader.Attends a chunk p handle := ⟨ha, handleId, n, hrow, hhandle⟩
    obtain ⟨request, addressed, houtcome⟩ := (h.shut_close i ho (goesOn st)).1.aborted chunk p hm hp
    cases request with
    | none => exact absurd attends (addressed a handle)
    | some url =>
      obtain ⟨b, handle', attends', rfl⟩ := addressed
      exact ⟨b, handle', attends', houtcome⟩
  · have rested := (h.acts (m := .invoke .close) trivial (Move.asks_all _)).2
    exact rested.over_steps (h.shut_close i ho hd).2 hms

end Run

end SingleFlight
