/-
SingleFlight.Proofs.Loads — how loads begin, wait and end.

As in `SingleFlight.Proofs.Entries`, each function has one equation, in a loader
whose sink is steady. What all uses of loads keep is `Orderly`: the active
loads are those without an outcome, and each has one armed watchdog.

* `Loader.conclude_counted`, `conclude_eq` — the end of a load, with what the
  sink holds afterwards and without; `conclude_shape` — the same for any sink.
* `Loader.load_of_unfound`, `load_of_loading`, `load_of_complete` — the three
  ways in which a load begins; `load_shape` — what it can touch, for any sink.
* `Loader.Orderly` with `Orderly.conclude`, `Orderly.wait`, `Orderly.hold` —
  the invariant, and what each change of the loads does to it.
-/
import Mathlib.Data.List.Perm.Basic
import SingleFlight.Loader.Flow
import SingleFlight.Proofs.Steady

namespace SingleFlight.Loader

/-! ## The end of a load -/

/-- The registry when a load on a handle has ended: only a load leaves the handle in it. -/
def registryAfter (l : Loader) (h : HandleId) (e : LoadEvent) : Registry :=
  if e.isLoad then l.registry else (l.remove h).registry

theorem detach_eq (l : Loader) (a : AttemptId) (h : HandleId) (e : LoadEvent) :
    l.detach a h e =
      { l with
        attempts := l.attempts.update a ({ · with settled := true })
        handles := l.handles.update h (·.release)
        watchdogs := l.watchdogs.filter (·.attempt ≠ a)
        registry := l.registryAfter h e
        active := l.active.filter (· ≠ a) } := by
  unfold detach registryAfter
  cases e.isLoad with
  | true => rfl
  | false =>
    simp only [Bool.false_eq_true, ↓reduceIte]
    cases hh : l.handles.get? h with
    | none => simp [remove, disarm, changeHandle, Table.get?_update, hh]
    | some handle =>
      simp [remove, disarm, changeHandle, Table.get?_update, hh, Handle.release]

theorem noteOutcome_eq (l : Loader) (chunk : ChunkId) (e : LoadEvent) :
    ∃ log, l.noteOutcome chunk e = { l with log } := by
  unfold noteOutcome
  split
  · exact ⟨_, rfl⟩
  · exact ⟨_, rfl⟩

/-- Whether its count is refused or not, a load that ends is taken out of everything that waits. -/
theorem conclude_shape (l : Loader) (a : AttemptId) (x : Attempt) (e : LoadEvent) :
    ∃ sink log refusal,
      l.conclude a x e = ({ l.detach a x.handle e with sink, log }, refusal) := by
  obtain ⟨sink, refusal, hc⟩ := count_eq (l.detach a x.handle e) outcomesTotal ("outcome", e.type)
  unfold conclude
  rw [hc]
  cases refusal with
  | some f => exact ⟨sink, (l.detach a x.handle e).log, some f, rfl⟩
  | none =>
    obtain ⟨log, hn⟩ := noteOutcome_eq { l.detach a x.handle e with sink } x.chunk e
    exact ⟨sink, log, none, congrArg (·, none) hn⟩

/-- The sink when the end of a load has been counted. -/
def countedEnd (s : Metrics.Sink) (type : String) : Metrics.Sink :=
  (s.add outcomesTotal (.whole 1) [("outcome", type)]).1

theorem steady_countedEnd {s : Metrics.Sink} (h : s.Steady) (type : String) :
    (countedEnd s type).Steady :=
  (h.add outcomesTotal "outcome" (by simp [counters]) type).2

/-- The end of a load, and what it leaves in the sink. -/
theorem conclude_counted {l : Loader} (hs : l.sink.Steady) (a : AttemptId) (t : Attempt)
    (e : LoadEvent) :
    ∃ log, l.conclude a t e =
      ({ l with
          attempts := l.attempts.update a ({ · with settled := true })
          handles := l.handles.update t.handle (·.release)
          watchdogs := l.watchdogs.filter (·.attempt ≠ a)
          registry := l.registryAfter t.handle e
          active := l.active.filter (· ≠ a)
          sink := countedEnd l.sink e.type
          log }, none) := by
  have taken := (hs.add outcomesTotal "outcome" (by simp [counters]) e.type).1
  have ended : l.conclude a t e =
      (({ l.detach a t.handle e with sink := countedEnd l.sink e.type } : Loader).noteOutcome
        t.chunk e, none) := by
    have hc : (l.detach a t.handle e).count outcomesTotal ("outcome", e.type) =
        ({ l.detach a t.handle e with sink := countedEnd l.sink e.type }, none) := by
      rw [detach_eq]
      simp [count, taken, countedEnd]
    simp only [conclude, hc]
  rw [detach_eq] at ended
  unfold noteOutcome at ended
  split at ended
  · exact ⟨_, ended⟩
  · exact ⟨_, ended⟩

/-- A load ends: its handle is released, its watchdog disarmed, and it is active no more. -/
theorem conclude_eq {l : Loader} (hs : l.sink.Steady) (a : AttemptId) (t : Attempt)
    (e : LoadEvent) :
    ∃ sink log, Metrics.Sink.Steady sink ∧
      l.conclude a t e =
        ({ l with
            attempts := l.attempts.update a ({ · with settled := true })
            handles := l.handles.update t.handle (·.release)
            watchdogs := l.watchdogs.filter (·.attempt ≠ a)
            registry := l.registryAfter t.handle e
            active := l.active.filter (· ≠ a)
            sink
            log }, none) := by
  obtain ⟨log, h⟩ := conclude_counted hs a t e
  exact ⟨_, log, steady_countedEnd hs e.type, h⟩

/-- A load that its watchdog ends is ended like any other: the watchdog would be disarmed anyway. -/
theorem conclude_disarm (l : Loader) (a : AttemptId) (t : Attempt) (e : LoadEvent) :
    (l.disarm a).conclude a t e = l.conclude a t e := by
  have hreg : (l.disarm a).registryAfter t.handle e = l.registryAfter t.handle e := by
    unfold registryAfter remove disarm
    cases l.handles.get? t.handle <;> rfl
  have hd : (l.disarm a).detach a t.handle e = l.detach a t.handle e := by
    rw [detach_eq, detach_eq, hreg]
    simp [disarm, List.filter_filter]
  unfold conclude
  rw [hd]

/-- A signal reaches a load whose watchdog was just disarmed as it would have otherwise. -/
theorem signal_disarm {l : Loader} {a : AttemptId} {t : Attempt}
    (ha : l.attempts.get? a = some t) (hs : t.settled = false) (e : LoadEvent)
    (foreign : Option CallbackId) (rest : List AttemptId) :
    signal e foreign (a :: rest) (l.disarm a) = signal e foreign (a :: rest) l := by
  have ha' : (l.disarm a).attempts.get? a = some t := ha
  simp only [signal, ha, ha', hs, conclude_disarm, Bool.false_eq_true, if_false]

/-! ### Watchdogs that are due -/

theorem earlier_mem {w w' : Watchdog} {ws : List Watchdog} (hw : w ∈ ws) (hw' : w' ∈ ws) :
    earlier w w' ∈ ws := by
  unfold earlier
  split
  · exact hw'
  · exact hw

theorem foldl_earlier_mem {ws : List Watchdog} : ∀ {rest : List Watchdog} {w : Watchdog},
    w ∈ ws → (∀ w' ∈ rest, w' ∈ ws) → rest.foldl earlier w ∈ ws
  | [], _, hw, _ => hw
  | w' :: rest, w, hw, hrest => by
    have hw' : w' ∈ ws := hrest w' (List.mem_cons_self ..)
    have htail : ∀ v ∈ rest, v ∈ ws := fun v hv => hrest v (List.mem_cons_of_mem w' hv)
    exact foldl_earlier_mem (w := earlier w w') (earlier_mem hw hw') htail

/-- The watchdog that fires is an armed one whose time has come. -/
theorem nextDue?_mem {l : Loader} {target : Float} {w : Watchdog}
    (h : l.nextDue? target = some w) : w ∈ l.watchdogs ∧ w.due ≤ target := by
  have hm : w ∈ l.watchdogs.filter (·.due ≤ target) := by
    unfold nextDue? at h
    split at h
    · cases h
    · rename_i first rest hdue
      rw [hdue]
      rw [← Option.some.inj h]
      exact foldl_earlier_mem (List.mem_cons_self ..) fun w' hw' => List.mem_cons_of_mem first hw'
  simpa using hm

/-! ## The beginning of a load -/

theorem noteLoad_eq (l : Loader) (chunk : ChunkId) (url : String) (h : HandleId)
    (mode : HandleMode) : ∃ log, l.noteLoad chunk url h mode = { l with log } := by
  cases mode <;> exact ⟨_, rfl⟩

/-- The fetch of a handle begins, where handles are fetched. -/
def Engages (l : Loader) (h : HandleId) (fetches : Table Fetch) (asks : List FetchId) : Prop :=
  if l.registry.fetches then fetches = l.fetches.add { handle := h } ∧ asks = [l.fetches.size]
  else fetches = l.fetches ∧ asks = []

/-- A handle that can hold what its registry fetches is registered, and its fetch begins. -/
theorem attach_eq {l : Loader} {h : HandleId} {handle : Handle}
    (hh : l.handles.get? h = some handle)
    (hd : l.registry.fetches = true → handle.download.isNone = false) :
    ∃ (fetches : Table Fetch) (asks : List FetchId), l.attach h =
      ({ l with
          registry := l.registry.attach h handle.url
          fetches
          ready := l.ready ++ asks.map .ask }, none) ∧
      l.Engages h fetches asks := by
  unfold attach Engages
  rw [hh]
  cases hr : l.registry.fetches with
  | true =>
    simp only [hd hr, if_true, Bool.false_eq_true, if_false]
    exact ⟨_, [l.fetches.size], rfl, rfl, rfl⟩
  | false =>
    simp only [Bool.false_eq_true, if_false]
    exact ⟨l.fetches, [], by simp, rfl, rfl⟩

/-- The handle that a load makes for itself. -/
def madeHandle (l : Loader) (chunk : ChunkId) (url : String) : Handle :=
  { l.registry.make url (some (l.plan.policy.tagFor chunk)) with loading := true }

section Begin

variable {l : Loader} {chunk : ChunkId} {url : String} (done : Done)

theorem handleFor_of_unfound (hf : l.findHandle chunk url = none) :
    l.handleFor chunk url =
      ({ l with handles := l.handles.add (l.madeHandle chunk url) }, l.handles.size, .created) := by
  simp [handleFor, hf, newHandle, madeHandle]

/-- A load that is refused leaves the handle that was made for it, unregistered. -/
theorem load_refused_of_unfound (hf : l.findHandle chunk url = none) {sink : Metrics.Sink}
    {f : Fault}
    (hc : ({ l with handles := l.handles.add (l.madeHandle chunk url) } : Loader).count
        handlesTotal ("mode", HandleMode.created.word) =
      ({ l with handles := l.handles.add (l.madeHandle chunk url), sink }, some f)) :
    l.load chunk url done =
      ({ l with handles := l.handles.add (l.madeHandle chunk url), sink }, .error f) := by
  simp only [load, handleFor_of_unfound hf, hc]

/-- The same load, if it is not refused: the new handle is waited for and registered. -/
theorem load_taken_of_unfound (hf : l.findHandle chunk url = none) {sink : Metrics.Sink}
    (hc : ({ l with handles := l.handles.add (l.madeHandle chunk url) } : Loader).count
        handlesTotal ("mode", HandleMode.created.word) =
      ({ l with handles := l.handles.add (l.madeHandle chunk url), sink }, none)) :
    ∃ log fetches, ∃ asks : List FetchId,
      l.load chunk url done =
        ({ l with
            attempts := l.attempts.add { chunk, handle := l.handles.size, done }
            active := l.active ++ [l.attempts.size]
            watchdogs := l.watchdogs ++ [⟨l.attempts.size, l.now + l.plan.policy.timeout⟩]
            handles := (l.handles.add (l.madeHandle chunk url)).update l.handles.size
              (·.observe l.attempts.size)
            registry := l.registry.attach l.handles.size url
            sink
            log
            fetches
            ready := l.ready ++ asks.map .ask }, .ok (l.handles.size, none)) ∧
        l.Engages l.handles.size fetches asks := by
  obtain ⟨log, hn⟩ := noteLoad_eq
    (({ l with
        handles := l.handles.add (l.madeHandle chunk url)
        attempts := l.attempts.add { chunk, handle := l.handles.size, done }
        sink } : Loader).watch l.attempts.size l.handles.size)
    chunk url l.handles.size .created
  have hh : ((l.handles.add (l.madeHandle chunk url)).update l.handles.size
      (·.observe l.attempts.size)).get? l.handles.size =
        some ((l.madeHandle chunk url).observe l.attempts.size) := by
    simp [Table.get?_update, Table.get?_add]
  obtain ⟨fetches, asks, ha, begun⟩ := attach_eq
    (l := { (({ l with
        handles := l.handles.add (l.madeHandle chunk url)
        attempts := l.attempts.add { chunk, handle := l.handles.size, done }
        sink } : Loader).watch l.attempts.size l.handles.size) with log })
    (h := l.handles.size) hh
    (by
      intro hr
      have hr' : l.registry.fetches = true := hr
      simp [Handle.observe, madeHandle, Registry.make, hr'])
  refine ⟨log, fetches, asks, ?_, begun⟩
  simp only [load, handleFor_of_unfound hf, hc, hn, ha]
  rfl

/-- A chunk whose handle is not found: a new one is made, waited for and registered. -/
theorem load_of_unfound (hs : l.sink.Steady) (hf : l.findHandle chunk url = none) :
    ∃ sink log fetches ready, Metrics.Sink.Steady sink ∧
      l.load chunk url done =
        ({ l with
            attempts := l.attempts.add { chunk, handle := l.handles.size, done }
            active := l.active ++ [l.attempts.size]
            watchdogs := l.watchdogs ++ [⟨l.attempts.size, l.now + l.plan.policy.timeout⟩]
            handles := (l.handles.add (l.madeHandle chunk url)).update l.handles.size
              (·.observe l.attempts.size)
            registry := l.registry.attach l.handles.size url
            sink
            log
            fetches
            ready }, .ok (l.handles.size, none)) ∧
        (l.registry.fetches = true → fetches = l.fetches.add { handle := l.handles.size }) := by
  obtain ⟨sink, steady, hc⟩ := count_steady
    (l := { l with handles := l.handles.add (l.madeHandle chunk url) }) hs
    handlesTotal "mode" (by simp [counters]) HandleMode.created.word
  obtain ⟨log, fetches, asks, hl, begun⟩ := load_taken_of_unfound done hf hc
  refine ⟨sink, log, fetches, _, steady, hl, fun hr => ?_⟩
  rw [Engages, if_pos hr] at begun
  exact begun.1

variable {h : HandleId} (hf : l.findHandle chunk url = some h)

include hf

theorem load_refused_of_found {mode : HandleMode}
    (hm : mode = if (l.handles.get? h).any (·.loading) then .adoptedLoading else .adoptedComplete)
    {sink : Metrics.Sink} {f : Fault}
    (hc : l.count handlesTotal ("mode", mode.word) = ({ l with sink }, some f)) :
    l.load chunk url done = ({ l with sink }, .error f) := by
  subst hm
  simp only [load, handleFor, hf, hc]

theorem load_taken_of_loading (hl : (l.handles.get? h).any (·.loading) = true)
    {sink : Metrics.Sink}
    (hc : l.count handlesTotal ("mode", HandleMode.adoptedLoading.word) =
      ({ l with sink }, none)) :
    ∃ log,
      l.load chunk url done =
        ({ l with
            attempts := l.attempts.add { chunk, handle := h, done }
            active := l.active ++ [l.attempts.size]
            watchdogs := l.watchdogs ++ [⟨l.attempts.size, l.now + l.plan.policy.timeout⟩]
            handles := l.handles.update h (·.observe l.attempts.size)
            sink
            log }, .ok (h, none)) := by
  have found : l.handleFor chunk url = (l, h, .adoptedLoading) := by
    simp [handleFor, hf, hl]
  obtain ⟨log, hn⟩ := noteLoad_eq
    (({ l with attempts := l.attempts.add { chunk, handle := h, done }, sink } : Loader).watch
      l.attempts.size h) chunk url h .adoptedLoading
  refine ⟨log, ?_⟩
  simp only [load, found, hc, hn]
  rfl

/-- A chunk whose handle is registered and still loading: the load joins those that wait. -/
theorem load_of_loading (hs : l.sink.Steady) (hl : (l.handles.get? h).any (·.loading) = true) :
    ∃ sink log, Metrics.Sink.Steady sink ∧
      l.load chunk url done =
        ({ l with
            attempts := l.attempts.add { chunk, handle := h, done }
            active := l.active ++ [l.attempts.size]
            watchdogs := l.watchdogs ++ [⟨l.attempts.size, l.now + l.plan.policy.timeout⟩]
            handles := l.handles.update h (·.observe l.attempts.size)
            sink
            log }, .ok (h, none)) := by
  obtain ⟨sink, steady, hc⟩ := count_steady hs handlesTotal "mode"
    (by simp [counters]) HandleMode.adoptedLoading.word
  obtain ⟨log, hload⟩ := load_taken_of_loading done hf hl hc
  exact ⟨sink, log, steady, hload⟩

theorem load_taken_of_complete (hl : (l.handles.get? h).any (·.loading) = false)
    {sink : Metrics.Sink}
    (hc : l.count handlesTotal ("mode", HandleMode.adoptedComplete.word) =
      ({ l with sink }, none)) :
    ∃ log,
      l.load chunk url done =
        ({ l with
            attempts := l.attempts.add { chunk, handle := h, done }
            sink
            log }, .ok (h, some l.attempts.size)) := by
  have found : l.handleFor chunk url = (l, h, .adoptedComplete) := by
    simp [handleFor, hf, hl]
  obtain ⟨log, hn⟩ := noteLoad_eq
    ({ l with attempts := l.attempts.add { chunk, handle := h, done }, sink } : Loader)
    chunk url h .adoptedComplete
  refine ⟨log, ?_⟩
  simp only [load, found, hc, hn]

/-- A chunk whose handle is registered and complete: the load is to be concluded at once. -/
theorem load_of_complete (hs : l.sink.Steady) (hl : (l.handles.get? h).any (·.loading) = false) :
    ∃ sink log, Metrics.Sink.Steady sink ∧
      l.load chunk url done =
        ({ l with
            attempts := l.attempts.add { chunk, handle := h, done }
            sink
            log }, .ok (h, some l.attempts.size)) := by
  obtain ⟨sink, steady, hc⟩ := count_steady hs handlesTotal "mode"
    (by simp [counters]) HandleMode.adoptedComplete.word
  obtain ⟨log, hload⟩ := load_taken_of_complete done hf hl hc
  exact ⟨sink, log, steady, hload⟩

end Begin

/-- Whatever handle a load gets, and even if it is refused: entries, promises, answers and tasks
are left alone. -/
theorem load_shape (l : Loader) (chunk : ChunkId) (url : String) (done : Done) :
    ∃ attempts active watchdogs handles registry fetches ready sink log,
      (l.load chunk url done).1 =
        { l with
          attempts, active, watchdogs, handles, registry, fetches, ready, sink, log } := by
  cases hf : l.findHandle chunk url with
  | none =>
    obtain ⟨sink, refusal, hc⟩ := count_eq
      { l with handles := l.handles.add (l.madeHandle chunk url) } handlesTotal
      ("mode", HandleMode.created.word)
    cases refusal with
    | some f =>
      rw [load_refused_of_unfound done hf hc]
      exact ⟨_, _, _, _, _, _, _, _, _, rfl⟩
    | none =>
      obtain ⟨log, fetches, asks, hl, -⟩ := load_taken_of_unfound done hf hc
      rw [hl]
      exact ⟨_, _, _, _, _, _, _, _, _, rfl⟩
  | some h =>
    cases hload : (l.handles.get? h).any (·.loading) with
    | true =>
      obtain ⟨sink, refusal, hc⟩ := count_eq l handlesTotal ("mode", HandleMode.adoptedLoading.word)
      cases refusal with
      | some f =>
        rw [load_refused_of_found done hf (by simp [hload]) hc]
        exact ⟨_, _, _, _, _, _, _, _, _, rfl⟩
      | none =>
        obtain ⟨log, hl⟩ := load_taken_of_loading done hf hload hc
        rw [hl]
        exact ⟨_, _, _, _, _, _, _, _, _, rfl⟩
    | false =>
      obtain ⟨sink, refusal, hc⟩ := count_eq l handlesTotal ("mode", HandleMode.adoptedComplete.word)
      cases refusal with
      | some f =>
        rw [load_refused_of_found done hf (by simp [hload]) hc]
        exact ⟨_, _, _, _, _, _, _, _, _, rfl⟩
      | none =>
        obtain ⟨log, hl⟩ := load_taken_of_complete done hf hload hc
        rw [hl]
        exact ⟨_, _, _, _, _, _, _, _, _, rfl⟩

/-! ## Active loads and their watchdogs -/

/--
The active loads are those without an outcome, and each of them has one watchdog. Between its
beginning and its end, a load on a complete handle is neither active nor settled: it is loose.
-/
structure Orderly (l : Loader) (loose : Option AttemptId) : Prop where
  nodup : l.active.Nodup
  active_iff : ∀ a, a ∈ l.active ↔
    loose ≠ some a ∧ ∃ t, l.attempts.get? a = some t ∧ t.settled = false
  watched : (l.watchdogs.map (·.attempt)).Perm l.active

namespace Orderly

variable {l l' : Loader} {loose : Option AttemptId} {a : AttemptId} {t : Attempt}

theorem congr (h : Orderly l loose) (hat : l'.attempts = l.attempts)
    (hac : l'.active = l.active) (hw : l'.watchdogs = l.watchdogs) : Orderly l' loose where
  nodup := by rw [hac]; exact h.nodup
  active_iff := by rw [hac, hat]; exact h.active_iff
  watched := by rw [hac, hw]; exact h.watched

theorem mem_active_of_unsettled (h : Orderly l none) (ha : l.attempts.get? a = some t)
    (hs : t.settled = false) : a ∈ l.active :=
  (h.active_iff a).mpr ⟨by simp, t, ha, hs⟩

theorem not_mem_active_of_settled (h : Orderly l loose) (ha : l.attempts.get? a = some t)
    (hs : t.settled = true) : a ∉ l.active := by
  intro hm
  obtain ⟨-, t', ha', hs'⟩ := (h.active_iff a).mp hm
  rw [ha] at ha'
  cases ha'
  rw [hs] at hs'
  cases hs'

/-- The load that ends is the loose one, if there is one. -/
theorem conclude (h : Orderly l loose) (hl : ∀ b, loose = some b → b = a)
    (hat : l'.attempts = l.attempts.update a ({ · with settled := true }))
    (hac : l'.active = l.active.filter (· ≠ a))
    (hw : l'.watchdogs = l.watchdogs.filter (·.attempt ≠ a)) : Orderly l' none where
  nodup := by rw [hac]; exact h.nodup.filter _
  active_iff := by
    intro b
    rw [hac, hat, List.mem_filter, h.active_iff, Table.get?_update]
    by_cases hb : a = b
    · subst hb
      simp only [ne_eq, not_true_eq_false, decide_false, Bool.false_eq_true, and_false, if_true,
        false_iff, not_and, not_exists]
      intro _ t ht
      obtain ⟨t', -, rfl⟩ := Option.map_eq_some_iff.mp ht
      simp
    · have hloose : loose ≠ some b := fun e => hb (hl b e).symm
      have hb' : b ≠ a := fun e => hb e.symm
      simp [hb, hb', hloose]
  watched := by
    have hf : (l.watchdogs.filter (·.attempt ≠ a)).map (·.attempt) =
        (l.watchdogs.map (·.attempt)).filter (· ≠ a) := by
      rw [List.filter_map]; rfl
    rw [hac, hw, hf]
    exact h.watched.filter _

theorem wait {due : Float} (h : Orderly l none) (ht : t.settled = false)
    (hat : l'.attempts = l.attempts.add t) (hac : l'.active = l.active ++ [l.attempts.size])
    (hw : l'.watchdogs = l.watchdogs ++ [⟨l.attempts.size, due⟩]) : Orderly l' none where
  nodup := by
    have hnew : l.attempts.size ∉ l.active := by
      intro hm
      obtain ⟨-, t', ht', -⟩ := (h.active_iff _).mp hm
      exact absurd rfl (Table.ne_size_of_get? ht')
    rw [hac]
    exact List.nodup_append.mpr ⟨h.nodup, by simp, by
      intro b hb c hc e
      rw [List.mem_singleton.mp hc] at e
      exact hnew (e ▸ hb)⟩
  active_iff := by
    intro b
    rw [hac, hat, List.mem_append, h.active_iff, Table.get?_add]
    by_cases hb : b = l.attempts.size
    · simp [hb, ht]
    · simp [hb]
  watched := by
    rw [hac, hw, List.map_append]
    exact h.watched.append_right _

theorem hold (h : Orderly l none) (hat : l'.attempts = l.attempts.add t)
    (hac : l'.active = l.active) (hw : l'.watchdogs = l.watchdogs) :
    Orderly l' (some l.attempts.size) where
  nodup := by rw [hac]; exact h.nodup
  active_iff := by
    intro b
    rw [hac, hat, h.active_iff, Table.get?_add]
    by_cases hb : b = l.attempts.size
    · subst hb
      simp
    · have hb' : l.attempts.size ≠ b := fun e => hb e.symm
      simp [hb, hb']
  watched := by rw [hac, hw]; exact h.watched

theorem reorder (h : Orderly l none) {active : List AttemptId} (hp : active.Perm l.active) :
    Orderly { l with active } none where
  nodup := hp.nodup_iff.mpr h.nodup
  active_iff := fun b => (hp.mem_iff).trans (h.active_iff b)
  watched := h.watched.trans hp.symm

/-- An active load has one watchdog, and no other load has any. -/
theorem watchdogs_of (h : Orderly l loose) (a : AttemptId) :
    (l.watchdogs.filter (·.attempt = a)).length = if a ∈ l.active then 1 else 0 := by
  have hc : (l.watchdogs.filter (·.attempt = a)).length =
      (l.watchdogs.map (·.attempt)).count a := by
    rw [← List.countP_eq_length_filter, List.count, List.countP_map]
    rfl
  rw [hc, h.watched.count_eq, h.nodup.count]

theorem length_watchdogs (h : Orderly l loose) : l.watchdogs.length = l.active.length := by
  rw [← h.watched.length_eq, List.length_map]

end Orderly

end SingleFlight.Loader
