/-
SingleFlight.Proofs.Untouched — loads come and go, fetches and shutdowns stay.

Work on loads, on the cache and on tasks does not look at fetches that are under
way, nor at shutdowns. All it can do there is begin fetches, whose turn to ask the
client is then in the queue; and what it queues tells no fetch and no shutdown
anything. This holds of any loader, whoever carries out its fetches.

* `Loader.Untouched` — what such work leaves alone.
* `Untouched.signal`, `start`, `collect`, `drive` — the pieces of work.
-/
import SingleFlight.Proofs.Shutdown

namespace SingleFlight

/-- The work does not get to the registry of a shutdown. -/
def Frame.BeforeShut : Frame → Prop
  | .shut _ => False
  | _ => True

namespace Loader

/-- Fetches and shutdowns are where they were, and the jobs that tell them anything. -/
structure Untouched (l l' : Loader) : Prop where
  closings : l'.closings = l.closings
  client : l'.registry.client? = l.registry.client?
  handles : l.handles.Kept l'.handles
  queued : ∃ jobs, l'.ready = l.ready ++ jobs ∧ ∀ j ∈ jobs, ¬j.OfFetches
  kept : ∀ f x, l.fetches.get? f = some x → l'.fetches.get? f = some x
  /-- A fetch that has begun waits for its turn to ask the client. -/
  begun : ∀ f x, l'.fetches.get? f = some x → l.fetches.get? f = some x ∨
    l.fetches.get? f = none ∧ x.stage = .created ∧ .ask f ∈ l'.ready ∧
      ∃ handle, l'.handles.get? x.handle = some handle

namespace Untouched

variable {l l' l'' : Loader} {t : Ticket} {a : AttemptId} {e : LoadEvent} {chunk : ChunkId}

/-- Handles may be made and change, and jobs may be queued that are not about fetches. -/
theorem beside (hc : l'.closings = l.closings) (hr : l'.registry.client? = l.registry.client?)
    (hh : l.handles.Kept l'.handles) (hf : l'.fetches = l.fetches) (jobs : List Job)
    (hq : l'.ready = l.ready ++ jobs) (hj : ∀ j ∈ jobs, ¬j.OfFetches) : Untouched l l' where
  closings := hc
  client := hr
  handles := hh
  queued := ⟨jobs, hq, hj⟩
  kept := by rw [hf]; exact fun _ _ => id
  begun := by rw [hf]; exact fun _ _ => .inl

/-- The queue stays as it is too. -/
theorem same (hc : l'.closings = l.closings) (hr : l'.registry.client? = l.registry.client?)
    (hh : l.handles.Kept l'.handles) (hf : l'.fetches = l.fetches) (hq : l'.ready = l.ready) :
    Untouched l l' :=
  beside hc hr hh hf [] (by rw [hq, List.append_nil]) nofun

theorem refl (l : Loader) : Untouched l l :=
  same rfl rfl .refl rfl rfl

theorem mem_ready (h : Untouched l l') {j : Job} (hj : j ∈ l.ready) : j ∈ l'.ready := by
  obtain ⟨jobs, hq, -⟩ := h.queued
  rw [hq]
  exact List.mem_append_left _ hj

/-- A job about fetches that is queued was so before. -/
theorem mem_of_ofFetches (h : Untouched l l') {j : Job} (hf : j.OfFetches) (hj : j ∈ l'.ready) :
    j ∈ l.ready := by
  obtain ⟨jobs, hq, hn⟩ := h.queued
  rw [hq] at hj
  exact (List.mem_append.mp hj).elim id fun hm => absurd hf (hn j hm)

theorem trans (h : Untouched l l') (h' : Untouched l' l'') : Untouched l l'' where
  closings := h'.closings.trans h.closings
  client := h'.client.trans h.client
  handles := h.handles.trans h'.handles
  queued := by
    obtain ⟨jobs, hq, hj⟩ := h.queued
    obtain ⟨jobs', hq', hj'⟩ := h'.queued
    refine ⟨jobs ++ jobs', by rw [hq', hq, List.append_assoc], fun j hm => ?_⟩
    exact (List.mem_append.mp hm).elim (hj j) (hj' j)
  kept := fun f x hx => h'.kept f x (h.kept f x hx)
  begun := by
    intro f x hx
    rcases h'.begun f x hx with hx' | ⟨hnone, hnew⟩
    · rcases h.begun f x hx' with hx | ⟨hnone, hs, hq, handle, hh⟩
      · exact .inl hx
      · exact .inr ⟨hnone, hs, h'.mem_ready hq, h'.handles _ handle hh⟩
    · refine .inr ⟨?_, hnew⟩
      cases hf : l.fetches.get? f with
      | none => rfl
      | some y => exact absurd (h.kept f y hf) (by simp [hnone])

/-- A fetch that is over stays so, and no fetch comes to its end. -/
theorem isOver_iff (h : Untouched l l') (f : FetchId) : l'.isOver f = l.isOver f := by
  unfold isOver
  cases hf : l.fetches.get? f with
  | some x => rw [h.kept f x hf]
  | none =>
    cases hf' : l'.fetches.get? f with
    | none => rfl
    | some x =>
      rcases h.begun f x hf' with hx | ⟨-, hs, -⟩
      · rw [hf] at hx
        cases hx
      · simp [hs]

/-! ## §1 Entries -/

theorem settlePromise (l : Loader) (p : PromiseId) (o : Outcome) :
    Untouched l (l.settlePromise p o) := by
  unfold Loader.settlePromise
  split
  · refine beside rfl rfl .refl rfl (l.tidings p) rfl fun j hm => ?_
    obtain ⟨x, -, hx⟩ := List.mem_filterMap.mp hm
    obtain ⟨-, hj⟩ := Option.ite_none_right_eq_some.mp hx
    cases hj
    exact id
  · exact refl l

/-- Only the cache, promises, answers, the sink and the log have changed. -/
theorem books (l : Loader) (cache : Cache) (promises : Promises) (handed : List (ChunkId × PromiseId))
    (sink : Metrics.Sink) (log : List LogRecord) :
    Untouched l { l with cache, promises, handed, sink, log } :=
  same rfl rfl .refl rfl rfl

theorem settleEntry (l : Loader) (t : Ticket) (e : LoadEvent) :
    Untouched l (l.settleEntry t e) := by
  unfold Loader.settleEntry
  split
  · exact (books l _ l.promises l.handed l.sink l.log).trans (settlePromise ..)
  · exact (books l _ l.promises l.handed l.sink _).trans (settlePromise ..)

theorem redeem (l : Loader) (t : Ticket) (e : LoadEvent) : Untouched l (l.redeem t e) := by
  unfold Loader.redeem
  split
  · exact settleEntry l t e
  · exact books ..

theorem abandon (l : Loader) (t : Ticket) : Untouched l (l.abandon t) := by
  unfold Loader.abandon
  split
  · exact books l _ l.promises l.handed l.sink l.log
  · exact refl l

theorem closeCache (l : Loader) : Untouched l l.closeCache := by
  refine List.foldlRecOn _ _ (refl l) fun l' h t _ => h.trans ?_
  exact (books l' _ l'.promises l'.handed l'.sink l'.log).trans (settlePromise ..)

theorem count {name : String} {tag : String × String} {refusal : Option Fault}
    (h : l.count name tag = (l', refusal)) : Untouched l l' := by
  cases h
  exact books l l.cache l.promises l.handed _ l.log

/-- A request is taken in. -/
theorem serve (l : Loader) (chunk : ChunkId) : Untouched l (l.serve chunk).1 := by
  have cached : ∀ cache promises, Untouched l { l with cache, promises } := fun cache promises =>
    books l cache promises l.handed l.sink l.log
  unfold Loader.serve
  dsimp only
  split
  · split
    · rename_i hc
      exact (cached _ _).trans (count hc)
    · rename_i hc
      exact (cached _ _).trans (count hc)
  · split
    · rename_i hc
      exact (cached _ _).trans (count hc)
    · rename_i l₁ hc
      have made : Untouched l₁ l₁.newPromise.1 := books l₁ _ _ _ _ _
      exact (((cached _ _).trans (count hc)).trans made).trans (settlePromise ..)
  · split
    · rename_i hc
      exact (cached _ _).trans (count hc)
    · rename_i l₁ hc
      exact ((cached _ _).trans (count hc)).trans (books ..)

theorem request (l : Loader) (chunk : ChunkId) : Untouched l (l.request chunk).1 := by
  unfold Loader.request
  split
  · exact refl l
  · split
    · exact serve l chunk
    · exact (books l _ l.promises l.handed l.sink l.log).trans (serve _ chunk)

/-! ## §2 Loads -/

/-- A load ends; all that can be refused is to count it. -/
theorem conclude (l : Loader) (a : AttemptId) (x : Attempt) (e : LoadEvent) :
    Untouched l (l.conclude a x e).1 := by
  obtain ⟨sink, log, refusal, hcon⟩ := l.conclude_shape a x e
  rw [hcon, detach_eq]
  refine same rfl ?_ (.update _ _) rfl rfl
  show (l.registryAfter x.handle e).client? = _
  unfold registryAfter
  split
  · rfl
  · exact client?_remove ..

theorem signal (e : LoadEvent) (foreign : Option CallbackId) (waiting : List AttemptId)
    (l : Loader) : Untouched l (Loader.signal e foreign waiting l).1 :=
  signal_keeps (fun l' a x _ _ h => h.trans (conclude l' a x e))
    (fun l' t h => h.trans (redeem l' t e)) foreign waiting (refl l)

theorem settleLoad (l : Loader) (a : AttemptId) (e : LoadEvent) :
    Untouched l (l.settleLoad a e).1 :=
  signal e none [a] l

theorem abortAll (attempts : List AttemptId) (l : Loader) :
    Untouched l (Loader.abortAll attempts l).1 :=
  abortAll_keeps (fun l' a h => h.trans (settleLoad l' a _)) attempts (refl l)

/-- A handle is registered; where handles are fetched, its fetch begins. -/
theorem attach (l : Loader) (h : HandleId) : Untouched l (l.attach h).1 := by
  unfold Loader.attach
  split
  · exact refl l
  · rename_i handle hh
    have registered : Untouched l { l with registry := l.registry.attach h handle.url } :=
      same rfl (Registry.client?_attach ..) .refl rfl rfl
    split
    · split
      · exact refl l
      · exact
          { registered with
            queued := ⟨[.ask l.fetches.size], rfl, by simp [Job.OfFetches]⟩
            kept := fun f x hx => Table.get?_add_of_some hx _
            begun := fun f x hx => by
              have hx' : (l.fetches.add { handle := h }).get? f = some x := hx
              rw [Table.get?_add] at hx'
              split at hx'
              · rename_i hf
                cases hx'
                exact .inr ⟨by rw [hf, Table.get?_size], rfl,
                  List.mem_append_right _ (by rw [hf]; exact List.mem_singleton.mpr rfl), handle, hh⟩
              · exact .inl hx' }
    · exact registered

/-- A load begins, or is refused. -/
theorem load (l : Loader) (chunk : ChunkId) (url : String) (done : Done) :
    Untouched l (l.load chunk url done).1 := by
  have held : Untouched l (l.handleFor chunk url).1 := by
    unfold handleFor
    split
    · exact refl l
    · exact same rfl rfl (.add _) rfl rfl
  have watched : ∀ (l : Loader) (x : Attempt) (h : HandleId) (mode : HandleMode),
      Untouched l (({ l with attempts := l.attempts.add x }.watch l.attempts.size h).noteLoad
        chunk url h mode) := by
    intro l x h mode
    obtain ⟨log, hn⟩ := noteLoad_eq ({ l with attempts := l.attempts.add x }.watch l.attempts.size h)
      chunk url h mode
    rw [hn]
    exact same rfl rfl (.update _ _) rfl rfl
  obtain ⟨⟨l₀, h, mode⟩, hp⟩ : ∃ p, l.handleFor chunk url = p := ⟨_, rfl⟩
  rw [hp] at held
  simp only [Loader.load, hp]
  cases hc : l₀.count handlesTotal ("mode", mode.word) with
  | mk l₁ refusal =>
    have counted := held.trans (count hc)
    cases refusal with
    | some f => exact counted
    | none =>
      cases mode with
      | created =>
        have attached := (counted.trans (watched l₁ { chunk, handle := h, done } h .created)).trans
          (attach _ h)
        dsimp only
        split
        · rename_i ha
          rw [ha] at attached
          exact attached
        · rename_i ha
          rw [ha] at attached
          exact attached
      | adoptedLoading =>
        exact counted.trans (watched l₁ { chunk, handle := h, done } h .adoptedLoading)
      | adoptedComplete =>
        obtain ⟨log, hn⟩ := noteLoad_eq
          ({ l₁ with attempts := l₁.attempts.add { chunk, handle := h, done } }) chunk url h
          .adoptedComplete
        dsimp only
        rw [hn]
        exact counted.trans (same rfl rfl .refl rfl rfl)

/-! ## §3 Stacks of work -/

theorem fetch (resolve : ChunkId → Except Fault String) (t : Ticket) (l : Loader) :
    Untouched l (l.fetch resolve t).1 := by
  unfold Loader.fetch
  split
  · exact abandon l t
  · rename_i url hr
    have loaded := load l t.chunk url (.redeem t)
    split
    · rename_i hl
      rw [hl] at loaded
      exact loaded.trans (abandon _ t)
    · rename_i hl
      rw [hl] at loaded
      exact loaded
    · rename_i l₁ h a hl
      rw [hl] at loaded
      have settled := loaded.trans (settleLoad l₁ a (l₁.signalFrom h "load"))
      split
      · rename_i hs
        rw [hs] at settled
        exact settled.trans (abandon _ t)
      · rename_i hs
        rw [hs] at settled
        exact settled
      · rename_i hs
        rw [hs] at settled
        exact settled

theorem start (l : Loader) (t : Ticket) : Untouched l (l.start t).1 := by
  unfold Loader.start
  split
  · exact refl l
  · exact fetch _ t l

theorem consult (l : Loader) (chunk : ChunkId) (e : LoadEvent) :
    Untouched l (l.consult chunk e).1 := by
  unfold Loader.consult
  split
  · exact refl l
  · exact refl l
  · split
    · exact refl l
    · exact settleLoad l _ e

theorem endTask (l : Loader) (task : TaskId) (r : TaskEnd) : Untouched l (l.endTask task r) :=
  same rfl rfl .refl rfl rfl

theorem await (l : Loader) (task : TaskId) (ps : List PromiseId) :
    Untouched l (l.await task ps) := by
  unfold Loader.await
  split
  · exact endTask l task _
  · refine beside rfl rfl .refl rfl _ rfl fun j hm => ?_
    obtain ⟨p, -, rfl⟩ := List.mem_map.mp hm
    exact id

theorem collect (task : TaskId) (got : List PromiseId) (chunks : List ChunkId) (l : Loader) :
    Untouched l (Loader.collect task got chunks l).1 :=
  collect_keeps (fun l' chunk h => h.trans (request l' chunk)) (fun l' t h => h.trans (start l' t))
    (fun l' _ _ h => h.trans (books l' _ _ _ _ _)) (fun l' got h => h.trans (await l' task got))
    (fun l' _ h => h.trans (endTask l' task _)) chunks got (refl l)

theorem perform (l : Loader) {frame : Frame} (hf : frame.BeforeShut) :
    Untouched l (l.perform frame).1 := by
  cases frame with
  | signal s e => exact signal e s.foreign s.waiting l
  | abort attempts => exact abortAll attempts l
  | start t => exact start l t
  | started t => exact refl l
  | hand chunk p => exact books l l.cache l.promises _ l.sink l.log
  | consult chunk e => exact consult l chunk e
  | settle t e =>
    unfold Loader.perform
    dsimp only
    split
    · exact settleEntry l t e
    · exact refl l
  | shut c => exact hf.elim
  | collect t got rest => exact collect t got rest l

/-- Work that has no shutdown to go on with. -/
theorem drive {frames : List Frame} (hf : ∀ f ∈ frames, f.BeforeShut) (l : Loader) :
    Untouched l (l.drive frames).1 :=
  drive_keeps (fun l' _ hp h => h.trans (perform l' hp)) (fun l' t h => h.trans (abandon l' t))
    (fun l' t _ h => h.trans (endTask l' t _)) (fun _ _ _ hs => absurd hs id) hf (refl l)

end Untouched

end Loader

end SingleFlight
