/-
SingleFlight.Proofs.Deadlines — loads whose window ends.

The watchdog of a load is set when the load begins, and never again: whoever
joins the load later waits for the same time. So it is the history of a use that
says when a load is due. Where nobody but watchdogs speaks of a timeout, and the
clock does not pass a watchdog that has not fired, a load times out then and at
no other time.

* `Loader.Housed` — every load has its handle, and the registry is tidy.
* `Loader.Arms` — the watchdogs after a move: those of before, and new ones.
* `Run.Punctual` — the moves that leave timing out to watchdogs.
* `Run.began?` — when a load began, read off a history.
* `Run.Expires` — the end of a load by its watchdog.
* `Run.deadlines_kept` — all of this, in every history of a whole loader.
-/
import SingleFlight.Proofs.Causes
import SingleFlight.Proofs.Origins
import SingleFlight.Proofs.Routes

namespace SingleFlight

/-- Only one type of signal stands for a timeout. -/
theorem LoadFailure.type_of_causeOf_timedOut {window time : Float} {type : String}
    (h : causeOf window type = .timedOut time) : type = "timeout" := by
  unfold causeOf at h
  split at h
  · assumption
  · split at h
    · cases h
    · cases h

namespace Loader

variable {asked : ChunkId → Prop} {l l' l₀ : Loader} {m : Move}

/-! ## §1 Loads and their handles -/

/-- Every load has its handle, and the registry is tidy. -/
structure Housed (l : Loader) : Prop where
  placed : ∀ a x, l.attempts.get? a = some x → ∃ y, l.handles.get? x.handle = some y
  tidy : l.registry.Tidy l.handles

namespace Housed

/-- Loads and handles stay as they are. -/
theorem congr (i : Housed l) (hat : l'.attempts = l.attempts) (hh : l'.handles = l.handles)
    (hr : l'.registry = l.registry) : Housed l' where
  placed := by rw [hat, hh]; exact i.placed
  tidy := by rw [hr, hh]; exact i.tidy

/-- Handles change, and each of them keeps its address. -/
theorem update (i : Housed l) (h : HandleId) {f : Handle → Handle} (hf : ∀ x, (f x).url = x.url)
    (hat : l'.attempts = l.attempts) (hh : l'.handles = l.handles.update h f)
    (hr : l'.registry = l.registry) : Housed l' where
  placed := by
    intro a x hx
    rw [hat] at hx
    obtain ⟨y, hy⟩ := i.placed a x hx
    rw [hh]
    exact Table.Kept.update h f _ y hy
  tidy := by
    rw [hr, hh]
    exact i.tidy.update h hf

/-- There is one handle more, which is not registered. -/
theorem add (i : Housed l) (y : Handle) (hat : l'.attempts = l.attempts)
    (hh : l'.handles = l.handles.add y) (hr : l'.registry = l.registry) : Housed l' where
  placed := by
    intro a x hx
    rw [hat] at hx
    obtain ⟨z, hz⟩ := i.placed a x hx
    exact ⟨z, by rw [hh]; exact Table.get?_add_of_some hz y⟩
  tidy := by
    rw [hr, hh]
    exact i.tidy.add y

/-- There is one load more, on a handle that is there. -/
theorem load (i : Housed l) {x : Attempt} {y : Handle} (hy : l.handles.get? x.handle = some y)
    (hat : l'.attempts = l.attempts.add x) (hh : l'.handles = l.handles)
    (hr : l'.registry = l.registry) : Housed l' where
  placed := by
    intro a z hz
    rw [hat, Table.get?_add] at hz
    rw [hh]
    split at hz
    · cases hz
      exact ⟨y, hy⟩
    · exact i.placed a z hz
  tidy := by
    rw [hr, hh]
    exact i.tidy

/-- Nothing but the registry changes, and it stays tidy. -/
theorem registry (i : Housed l) (hat : l'.attempts = l.attempts) (hh : l'.handles = l.handles)
    (tidy : l'.registry.Tidy l.handles) : Housed l' where
  placed := by rw [hat, hh]; exact i.placed
  tidy := by rw [hh]; exact tidy

theorem remove (i : Housed l) (h : HandleId) : Housed (l.remove h) := by
  unfold Loader.remove
  split
  · exact i
  · exact i.registry rfl rfl (i.tidy.remove h _)

/-- A handle that is not registered comes into the registry. -/
theorem attach (i : Housed l) {h : HandleId} (hn : h ∉ l.registry.handles) :
    Housed (l.attach h).1 := by
  unfold Loader.attach
  split
  · exact i
  · rename_i x hx
    have entered := (i.tidy.enter hn ⟨x, hx, rfl⟩).1
    split
    · split
      · exact i
      · exact i.registry rfl rfl entered
    · exact i.registry rfl rfl entered

end Housed

theorem Change.housed (h : Change asked l l') (i : Housed l) : Housed l' := by
  cases h with
  | kept h he ho =>
    obtain ⟨ready, hs⟩ := l.newPromise.1.settlePromise_eq l.newPromise.2 .ok
    rw [hs]
    exact i.congr rfl rfl rfl
  | @abandoned t h =>
    unfold abandon
    split
    · exact i.congr rfl rfl rfl
    · exact i
  | made chunk url => exact i.add _ rfl rfl rfl
  | @created resolve t url hc ht hw hr hf fetches asks =>
    let y := l.madeHandle t.chunk url
    have row : (l.handles.add y).get? l.handles.size = some y := Table.get?_add_size ..
    have made : Housed { l with handles := l.handles.add y } := i.add y rfl rfl rfl
    have loaded : Housed { l with
        handles := l.handles.add y
        attempts := l.attempts.add { chunk := t.chunk, handle := l.handles.size, done := .redeem t } } :=
      made.load row rfl rfl rfl
    have entered : Housed { l with
        handles := l.handles.add y
        attempts := l.attempts.add { chunk := t.chunk, handle := l.handles.size, done := .redeem t }
        registry := l.registry.attach l.handles.size url } :=
      loaded.registry rfl rfl (loaded.tidy.enter i.tidy.size_not_mem ⟨y, row, rfl⟩).1
    exact entered.update _ (f := (·.observe l.attempts.size)) (fun _ => rfl) rfl rfl rfl
  | @adopted t url h ht hf hl =>
    obtain ⟨y, hy⟩ := i.tidy.exists_of_mem (Registry.find?_mem hf)
    have loaded : Housed { l with
        attempts := l.attempts.add { chunk := t.chunk, handle := h, done := .redeem t } } :=
      i.load hy rfl rfl rfl
    exact loaded.update _ (f := (·.observe l.attempts.size)) (fun _ => rfl) rfl rfl rfl
  | @found t url h ht hf hl =>
    obtain ⟨y, hy⟩ := i.tidy.exists_of_mem (Registry.find?_mem hf)
    have loaded : Housed { l with
        attempts := l.attempts.add
          { chunk := t.chunk, handle := h, done := .redeem t, settled := true } } :=
      i.load hy rfl rfl rfl
    exact loaded.update _ (f := (·.release)) (fun _ => rfl) rfl rfl rfl
  | @concluded a x ha hx e =>
    obtain ⟨y, hy⟩ := i.placed a x ha
    have ended : Housed { l with
        attempts := l.attempts.update a ({ · with settled := true })
        registry := l.registryAfter x.handle e } :=
      { placed := by
          intro b z hz
          obtain ⟨z', hz', -, hhandle⟩ := Loading.attempt_of_settle hz
          rw [hhandle]
          exact i.placed b z' hz'
        tidy := (tidy_registryAfter i.tidy hy e).1 }
    rw [detach_eq]
    exact ended.update _ (f := (·.release)) (fun _ => rfl) rfl rfl rfl
  | @settled t h e =>
    obtain ⟨ready, log, hs⟩ := l.settleEntry_eq t e
    rw [hs]
    exact i.congr rfl rfl rfl
  | @aborted t h =>
    obtain ⟨o, ready, hs⟩ := l.abortEntry_eq t
    rw [hs]
    exact i.congr rfl rfl rfl
  | _ => exact i.congr rfl rfl rfl

/-- Unless a handle is attached from outside, the registry takes none that it holds already. -/
theorem Act.housed (h : Act asked l m l') (hm : ∀ k, m ≠ .invoke (.attach k)) (i : Housed l) :
    Housed l' := by
  have inner : ∀ {l₁ : Loader}, Inner l l₁ → Housed l₁ := by
    rintro l₁ ⟨_, _, _, rfl⟩
    exact i.congr rfl rfl rfl
  cases h with
  | work h => exact h.housed i
  | spare handle hs => exact i.add handle rfl rfl rfl
  | planted handle =>
    have made : Housed { l with handles := l.handles.add handle } := i.add handle rfl rfl rfl
    have row : (l.handles.add handle).get? l.handles.size = some handle := Table.get?_add_size ..
    exact made.registry rfl rfl (made.tidy.enter i.tidy.size_not_mem ⟨handle, row, rfl⟩).2
  | attached k => exact absurd rfl (hm k)
  | removed k => exact i.remove k
  | assigned k hf hs => exact i.update k (fun x => (hf x).1) rfl rfl rfl
  | unloaded fetches closings hr hj hf =>
    rcases hr with rfl | rfl
    · exact i.congr rfl rfl rfl
    · exact i.registry rfl rfl i.tidy.shut
  | cancelled p => exact inner (l.inner_cancelPromise p)
  | taskCancelled t => exact inner (l.inner_cancelTask t)
  | @told t p rest h => exact inner (l.inner_childSettled rest t p)
  | @woken t rest h => exact inner (l.inner_wakeTask rest t)
  | @awaited t chunks ps h hp => exact inner (l.inner_await t ps)
  | _ => exact i.congr rfl rfl rfl

/-! ## §2 Watchdogs -/

/-- Each watchdog was set before, or it is that of a load that is new, and due after the window. -/
structure Arms (l₀ l : Loader) : Prop where
  window : l.plan.policy = l₀.plan.policy
  size : l₀.attempts.size ≤ l.attempts.size
  watchdogs : ∀ w ∈ l.watchdogs, w ∈ l₀.watchdogs ∨
    l₀.attempts.size ≤ w.attempt ∧ w.attempt < l.attempts.size ∧
      w.due = l₀.now + l₀.plan.policy.timeout

namespace Arms

theorem refl (l : Loader) : Arms l l :=
  ⟨rfl, Nat.le_refl _, fun _ => .inl⟩

/-- No watchdog is set. -/
theorem still (i : Arms l₀ l) (hp : l'.plan.policy = l.plan.policy)
    (hs : l.attempts.size ≤ l'.attempts.size) (hw : ∀ w ∈ l'.watchdogs, w ∈ l.watchdogs) :
    Arms l₀ l' where
  window := hp.trans i.window
  size := Nat.le_trans i.size hs
  watchdogs := by
    intro w hm
    rcases i.watchdogs w (hw w hm) with old | ⟨hlo, hhi, hdue⟩
    · exact .inl old
    · exact .inr ⟨hlo, Nat.lt_of_lt_of_le hhi hs, hdue⟩

theorem congr (i : Arms l₀ l) (hp : l'.plan.policy = l.plan.policy)
    (hat : l'.attempts = l.attempts) (hw : l'.watchdogs = l.watchdogs) : Arms l₀ l' :=
  i.still hp (by rw [hat]) (by rw [hw]; exact fun _ => id)

/-- The load that begins gets a watchdog. -/
theorem arm (i : Arms l₀ l) (hn : l.now = l₀.now) (hp : l'.plan.policy = l.plan.policy)
    (hw : l.Waits l') : Arms l₀ l' where
  window := hp.trans i.window
  size := by
    obtain ⟨x, hat⟩ := hw.begun
    rw [hat, Table.size_add]
    exact Nat.le_succ_of_le i.size
  watchdogs := by
    intro w hm
    obtain ⟨x, hat⟩ := hw.begun
    rw [hat, Table.size_add]
    rw [hw.watchdogs] at hm
    rcases List.mem_append.mp hm with hm | hm
    · rcases i.watchdogs w hm with old | ⟨hlo, hhi, hdue⟩
      · exact .inl old
      · exact .inr ⟨hlo, Nat.lt_succ_of_lt hhi, hdue⟩
    · rw [List.mem_singleton.mp hm, ← i.window, ← hn]
      exact .inr ⟨i.size, Nat.lt_succ_self _, rfl⟩

end Arms

/-- Where the clock stands still, a watchdog is set for each load that begins, and for no other. -/
theorem Act.arms (h : Act asked l m l') (hf : ∀ target, m ≠ .fire target)
    (hc : ∀ now, m ≠ .setClock now) (hn : l.now = l₀.now) (i : Arms l₀ l) :
    l'.now = l₀.now ∧ Arms l₀ l' := by
  refine ⟨(h.timing.clock hf hc).trans hn, ?_⟩
  rcases h.timing.loads with eases | waits
  · exact i.still h.timing.policy eases.size eases.watchdogs
  · exact i.arm hn h.timing.policy waits

/-- A watchdog that is due by some time is not overlooked. -/
theorem nextDue?_of_due {target : Float} {w : Watchdog} (hw : w ∈ l.watchdogs)
    (hdue : w.due ≤ target) : ∃ w', l.nextDue? target = some w' := by
  have hm : w ∈ l.watchdogs.filter (·.due ≤ target) := by simp [hw, hdue]
  unfold nextDue?
  split
  · rename_i hnil
    rw [hnil] at hm
    cases hm
  · exact ⟨_, rfl⟩

/-- A load has timed out, and with it the attempt at its chunk. -/
structure TimedOut (window : Float) (l : Loader) (a : AttemptId) (h : HandleId) (x : Handle)
    (t : Ticket) (l' : Loader) : Prop where
  ended : l.EndedBy a h x t "timeout" l'
  unknown : l'.cache.find? t.chunk = none
  unregistered : h ∉ l'.registry.handles
  /-- Whoever waits for the chunk, and since whenever, holds the promise of the attempt. -/
  waiters : ∀ p, (t.chunk, p) ∈ l.handed → l.promises.isPending p = true → p = t.promise
  /-- They get one error. -/
  told : l.promises.outcome? t.promise ≠ some .cancelled →
    l'.promises.outcome? t.promise = some (.failed
      { chunk := t.chunk
        cause := .timedOut window
        request := some x.url
        assetKind := l.plan.policy.assetKind })

end Loader

namespace Run

open Loader (Housed Arms Reports Undecided)

variable {window : Float} {r start : Run} {m : Move} {ms : List Move}

/-! ## §3 Moves that leave timing out to watchdogs -/

/--
Nobody but a watchdog speaks of a timeout, the clock waits for watchdogs to fire, and no handle is
registered twice.
-/
structure Punctual (r : Run) (m : Move) : Prop where
  outer : m.Outer
  unsaid : ∀ op, m = .invoke op → op.endType? ≠ some "timeout"
  unqueued : ∀ k e, m = .invoke (.reportLater k e) → e.type ≠ "timeout"
  clocked : ∀ now, m = .setClock now → r.idle = true → r.loader.nextDue? now = none
  attached : ∀ h, m = .invoke (.attach h) → h ∉ r.loader.registry.handles

/-- Watchdogs may fire whenever they are due. -/
theorem punctual_fire (r : Run) (target : Float) : r.Punctual (.fire target) where
  outer := trivial
  unsaid := nofun
  unqueued := nofun
  clocked := nofun
  attached := nofun

theorem mem_endings {a : AttemptId} {type : String} :
    (a, type) ∈ r.endings m ↔ r.endType? m = some type ∧ a ∈ r.settledBy m := by
  unfold endings
  cases r.endType? m with
  | none => simp
  | some type' =>
    simp only [List.mem_map, Prod.mk.injEq, Option.some.injEq]
    constructor
    · rintro ⟨b, hb, rfl, rfl⟩
      exact ⟨rfl, hb⟩
    · rintro ⟨rfl, ha⟩
      exact ⟨a, ha, rfl, rfl⟩

/-- What such moves keep. -/
structure Timed (window : Float) (r : Run) : Prop where
  rested : r.Rested fun _ => True
  settled : r.Settled
  undecided : r.loader.Undecided
  housed : r.loader.Housed
  unqueued : r.loader.Reports (·.type ≠ "timeout")
  window : r.loader.plan.policy.timeout = window

theorem loader_attach (r : Run) (h : HandleId) :
    (r.step (.invoke (.attach h))).loader = (r.loader.attach h).1 := by
  simp only [step, Loader.invoke]
  cases ha : r.loader.attach h with
  | mk l refusal => cases refusal <;> rfl

namespace Timed

theorem step (i : r.Timed window) (hm : r.Punctual m) : (r.step m).Timed window := by
  obtain ⟨acts, rested⟩ := i.rested.acts hm.outer m.asks_all
  have whole := i.rested.whole
  refine ⟨rested, i.settled.step hm.outer, ?_, ?_, ?_, ?_⟩
  · exact acts.keeps (fun _ _ w act u => act.undecided w u) whole i.undecided
  · by_cases ha : ∃ h, m = .invoke (.attach h)
    · obtain ⟨h, rfl⟩ := ha
      rw [loader_attach]
      exact i.housed.attach (hm.attached h rfl)
    · exact acts.keeps (fun _ _ _ act i => act.housed (fun h e => ha ⟨h, e⟩) i) whole i.housed
  · exact acts.keeps (fun _ _ _ act i => act.reports hm.unqueued i) whole i.unqueued
  · exact acts.keeps (I := (·.plan.policy.timeout = window))
      (fun _ _ _ act h => by rw [act.timing.policy]; exact h) whole i.window

/-- No answer of a client signals that time is up. -/
theorem reply_not_timeout (reply : Reply) : reply.signal ≠ "timeout" := by
  cases reply with
  | response status content complaint =>
    unfold Reply.signal
    dsimp only
    split <;> decide
  | _ => simp [Reply.signal]

/-- Only a watchdog ends loads by a signal of that type. -/
theorem fires_of_endType? (i : r.Timed window) (hm : r.Punctual m)
    (ht : r.endType? m = some "timeout") : ∃ target, m = .fire target := by
  cases m with
  | invoke op => exact absurd ht (hm.unsaid op rfl)
  | fire target => exact ⟨target, rfl⟩
  | runJob =>
    obtain ⟨⟨j, l⟩, hj, ht⟩ := Option.bind_eq_some_iff.mp ht
    unfold Loader.nextJob? at hj
    split at hj
    · cases hj
    · rename_i hq
      cases hj
      cases j with
      | report k e =>
        have hne := i.unqueued k e (by rw [hq]; exact List.mem_cons_self)
        exact absurd (Option.some.inj ht) hne
      | ask f =>
        simp only [Loader.jobEndType?] at ht
        split at ht
        · obtain ⟨reply, -, hr⟩ := Option.map_eq_some_iff.mp ht
          exact absurd hr (reply_not_timeout reply)
        · cases ht
      | answer f =>
        simp only [Loader.jobEndType?] at ht
        split at ht
        · rename_i reply _
          exact absurd (Option.some.inj ht) (reply_not_timeout _)
        · cases ht
      | startTask t => exact absurd (Option.some.inj ht) (by decide)
      | _ => cases ht
  | _ => cases ht

end Timed

/-! ## §4 The end of a window -/

/-- The next watchdog that fires is this one; its load times out, at the time for which it was set. -/
structure Expires (window : Float) (r : Run) (target : Float) (w : Watchdog) : Prop where
  idle : r.idle = true
  next : r.loader.nextDue? target = some w
  endings : r.endings (.fire target) = [(w.attempt, "timeout")]
  effect : ∃ t h x l',
    r.loader.attempts.get? w.attempt =
      some { chunk := t.chunk, handle := h, done := .redeem t } ∧
    r.loader.handles.get? h = some x ∧ r.loader.cache.ticketOf? t.chunk = some t ∧
    r.loader.TimedOut window w.attempt h x t l' ∧
    r.step (.fire target) = { r with loader := { l' with now := w.due } }

namespace Timed

theorem expires (i : r.Timed window) (hi : r.idle = true) {target : Float} {w : Watchdog}
    (hw : r.loader.nextDue? target = some w) : r.Expires window target w := by
  have c := i.settled.coupled
  have active : w.attempt ∈ r.loader.active :=
    c.orderly.watched.mem_iff.mp (List.mem_map_of_mem (Loader.nextDue?_mem hw).1)
  obtain ⟨t, ⟨-, h, ha⟩, ht, -⟩ := c.carried w.attempt active
  obtain ⟨x, hx⟩ := i.housed.placed _ _ ha
  have own : r.loader.endSignal w.attempt "timeout" = r.loader.signalFrom h "timeout" := by
    simp [Loader.endSignal, ha, Loader.signalFrom]
  obtain ⟨l', hset, ended, -⟩ := c.ended_passed i.rested.whole i.undecided hx ha ht "timeout"
  have fired := step_fire_due c hi hw (own ▸ hset)
  have drop : l'.cache = r.loader.cache.drop t.chunk := ended.entries
  have registry : l'.registry = r.loader.registry.remove h x.url := ended.registry
  refine ⟨hi, hw, ?_, t, h, x, l', ha, hx, ht, ⟨ended, ?_, ?_, ?_, ?_⟩, fired⟩
  · -- Of all loads, this one alone has an outcome that it had not before.
    have hlt : w.attempt < r.loader.attempts.size := Table.lt_size_iff.mpr ⟨_, ha⟩
    have new : ∀ b, (l'.hasEnded b && !r.loader.hasEnded b) = decide (b = w.attempt) := by
      intro b
      simp only [Loader.hasEnded, ended.attempts, Table.get?_update]
      by_cases hb : w.attempt = b
      · subst hb
        simp [ha]
      · have hb' : b ≠ w.attempt := fun e => hb e.symm
        simp [hb, hb']
    have settled : r.settledBy (.fire target) = [w.attempt] := by
      unfold settledBy
      rw [fired]
      refine List.perm_singleton.mp ((List.perm_ext_iff_of_nodup (List.nodup_range.filter _)
        (List.nodup_singleton _)).mpr fun b => ?_)
      rw [List.mem_filter, List.mem_range, List.mem_singleton]
      show b < l'.attempts.size ∧ (l'.hasEnded b && !r.loader.hasEnded b) = true ↔ _
      rw [new, ended.attempts, Table.size_update, decide_eq_true_eq]
      exact ⟨And.right, fun hb => ⟨hb ▸ hlt, hb⟩⟩
    simp only [endings, endType?, settled, List.map_cons, List.map_nil]
  · rw [drop, Cache.find?_drop, if_pos rfl]
  · rw [registry]
    exact i.housed.tidy.not_mem_remove ⟨x, hx, rfl⟩
  · intro p hm hp
    obtain ⟨t', ht', rfl⟩ := i.rested.whole.awaited t.chunk p hm hp
    rw [ht] at ht'
    cases ht'
    rfl
  · intro hne
    rw [ended.told hne, if_neg (by decide), i.window]
    rfl

/-- Nothing is due, or a load times out. -/
theorem fire_cases (i : r.Timed window) (target : Float) :
    r.step (.fire target) = r ∨ ∃ w, r.Expires window target w := by
  cases hi : r.idle with
  | false => exact .inl (by simp only [Run.step, hi])
  | true =>
    cases hn : r.loader.nextDue? target with
    | none => exact .inl (by simp only [Run.step, hi, Loader.fireNext?, hn, Option.map_none])
    | some w => exact .inr ⟨w, i.expires hi hn⟩

/-- Watchdogs fire one after the other until it is this one's turn. -/
theorem fires (i : r.Timed window) (hi : r.idle = true) {target : Float} {w : Watchdog}
    (hw : w ∈ r.loader.watchdogs) (hdue : w.due ≤ target) :
    ∃ n < r.loader.watchdogs.length,
      (r.steps (List.replicate n (.fire target))).Expires window target w := by
  induction hn : r.loader.watchdogs.length using Nat.strong_induction_on generalizing r with
  | _ n ih =>
    obtain ⟨w', hw'⟩ := Loader.nextDue?_of_due hw hdue
    have first := i.expires hi hw'
    by_cases heq : w' = w
    · subst heq
      exact ⟨0, by rw [← hn]; exact List.length_pos_of_mem hw, first⟩
    · obtain ⟨t, h, x, l', -, -, -, out, fired⟩ := first.effect
      have watchdogs : (r.step (.fire target)).loader.watchdogs =
          r.loader.watchdogs.filter (·.attempt ≠ w'.attempt) := by
        rw [fired]
        exact out.ended.watchdogs
      -- Two watchdogs of one load would be one watchdog.
      have other : w.attempt ≠ w'.attempt := by
        intro e
        have nodup : (r.loader.watchdogs.map (·.attempt)).Nodup :=
          i.settled.coupled.orderly.watched.nodup_iff.mpr i.settled.coupled.orderly.nodup
        exact heq (List.inj_on_of_nodup_map nodup (Loader.nextDue?_mem hw').1 hw e.symm)
      have kept : w ∈ (r.step (.fire target)).loader.watchdogs := by
        rw [watchdogs]
        exact List.mem_filter.mpr ⟨hw, by simpa using other⟩
      have fewer : (r.step (.fire target)).loader.watchdogs.length < n := by
        rw [watchdogs, ← hn, List.length_filter_lt_length_iff_exists]
        exact ⟨w', (Loader.nextDue?_mem hw').1, by simp⟩
      have idle : (r.step (.fire target)).idle = true := by
        rw [fired]
        exact hi
      obtain ⟨k, hk, turn⟩ := ih _ fewer (i.step (r.punctual_fire target)) idle kept rfl
      exact ⟨k + 1, Nat.lt_of_le_of_lt hk fewer, turn⟩

/-- A move sets watchdogs for the loads that begin, each due after the window. -/
theorem arms (i : r.Timed window) (hm : r.Punctual m) : Arms r.loader (r.step m).loader := by
  obtain ⟨acts, -⟩ := i.rested.acts hm.outer m.asks_all
  have whole := i.rested.whole
  cases m with
  | fire target =>
    rcases i.fire_cases target with hsame | ⟨w, out⟩
    · rw [hsame]
      exact .refl _
    · obtain ⟨t, h, x, l', -, -, -, out, fired⟩ := out.effect
      have policy : (r.step (.fire target)).loader.plan.policy = r.loader.plan.policy :=
        acts.keeps (I := (·.plan.policy = r.loader.plan.policy))
          (fun _ _ _ act h => act.timing.policy.trans h) whole rfl
      rw [fired] at policy ⊢
      refine (Arms.refl r.loader).still policy ?_ fun w hw => ?_
      · show _ ≤ l'.attempts.size
        rw [out.ended.attempts, Table.size_update]
      · rw [show l'.watchdogs = _ from out.ended.watchdogs] at hw
        exact List.mem_of_mem_filter hw
  | setClock now =>
    simp only [Run.step]
    split
    · exact (Arms.refl r.loader).congr rfl rfl rfl
    · exact .refl _
  | _ =>
    exact (acts.keeps (I := fun l => l.now = r.loader.now ∧ Arms r.loader l)
      (fun _ _ _ act h => act.arms (by simp) (by simp) h.1 h.2) whole ⟨rfl, .refl _⟩).2

end Timed

/-! ## §5 Histories -/

/-- What the clock showed when a load began, if it did so in the course of a history. -/
def began? (r : Run) : List Move → AttemptId → Option Float
  | [], _ => none
  | m :: ms, a =>
    if r.loader.attempts.size ≤ a ∧ a < (r.step m).loader.attempts.size then some r.loader.now
    else (r.step m).began? ms a

/-- A load that had not begun before can begin in the last move. -/
theorem began?_concat (r : Run) (ms : List Move) (m : Move) (a : AttemptId) :
    r.began? (ms ++ [m]) a = (r.began? ms a).or
      (if (r.steps ms).loader.attempts.size ≤ a ∧
          a < ((r.steps ms).step m).loader.attempts.size
        then some (r.steps ms).loader.now else none) := by
  induction ms generalizing r with
  | nil => rfl
  | cons m' ms ih =>
    rw [List.cons_append, steps_cons, began?, began?]
    split
    · rfl
    · exact ih (r.step m')

/-- What a history tells of the loads and the watchdogs to which it led. -/
structure Alarmed (window : Float) (start : Run) (ms : List Move) : Prop where
  timed : (start.steps ms).Timed window
  past : ∀ a time, start.began? ms a = some time → a < (start.steps ms).loader.attempts.size
  due : ∀ w ∈ (start.steps ms).loader.watchdogs,
    (start.began? ms w.attempt).map (· + window) = some w.due

theorem Alarmed.concat (i : start.Alarmed window ms) (hm : (start.steps ms).Punctual m) :
    start.Alarmed window (ms ++ [m]) := by
  have arms := i.timed.arms hm
  refine ⟨by rw [steps_concat]; exact i.timed.step hm, fun a time ha => ?_, fun w hw => ?_⟩
  · rw [began?_concat] at ha
    rw [steps_concat]
    rcases Option.or_eq_some_iff.mp ha with old | ⟨-, new⟩
    · exact Nat.lt_of_lt_of_le (i.past a time old) arms.size
    · split at new
      · rename_i h
        exact h.2
      · cases new
  · rw [steps_concat] at hw
    rw [began?_concat]
    rcases arms.watchdogs w hw with old | ⟨hlo, hhi, hdue⟩
    · have due := i.due w old
      obtain ⟨time, ht, -⟩ := Option.map_eq_some_iff.mp due
      rw [ht, Option.some_or, ← ht]
      exact due
    · have fresh : start.began? ms w.attempt = none := by
        refine Option.eq_none_iff_forall_ne_some.mpr fun time ht => ?_
        exact absurd (i.past _ _ ht) (Nat.not_lt.mpr hlo)
      rw [fresh, Option.none_or, if_pos ⟨hlo, hhi⟩, hdue, i.timed.window]
      rfl

/--
When the loads of a use are due, and that they end then, after a history of which no move but the
firing of watchdogs spoke of a timeout.
-/
structure Deadlines (window : Float) (start : Run) (ms : List Move) : Prop where
  /-- A load that waits is due after the window, counted from its begin, and no other is. -/
  armed : ∀ a due, ⟨a, due⟩ ∈ (start.steps ms).loader.watchdogs ↔
    a ∈ (start.steps ms).loader.active ∧ (start.began? ms a).map (· + window) = some due
  single : ((start.steps ms).loader.watchdogs.map (·.attempt)).Nodup
  /-- A load times out by its own watchdog, which turns the clock to the time at which it is due. -/
  own : ∀ m a, (start.steps ms).Punctual m → (a, "timeout") ∈ (start.steps ms).endings m →
    ∃ target due, m = .fire target ∧ (start.began? ms a).map (· + window) = some due ∧
      (start.steps ms).Expires window target ⟨a, due⟩ ∧
      ((start.steps ms).step m).loader.now = due
  /-- Whoever is told of a timeout waits for a load that times out in this very move. -/
  cause : ∀ m p f time, (start.steps ms).Punctual m →
    (start.steps ms).loader.promises.outcome? p ≠ some (.failed f) →
    ((start.steps ms).step m).loader.promises.outcome? p = some (.failed f) →
    f.cause = .timedOut time →
    ∃ target w t h, m = .fire target ∧ (start.steps ms).Expires window target w ∧
      (start.steps ms).loader.attempts.get? w.attempt =
        some { chunk := t.chunk, handle := h, done := .redeem t } ∧ p = t.promise
  /-- The clock does not pass the time at which a load is due; it times out before that. -/
  reached : ∀ a due target, a ∈ (start.steps ms).loader.active →
    (start.began? ms a).map (· + window) = some due → due ≤ target →
    (start.steps ms).idle = true →
    ¬(start.steps ms).Punctual (.setClock target) ∧
      ∃ n < (start.steps ms).loader.watchdogs.length,
        ((start.steps ms).steps (List.replicate n (.fire target))).Expires window target ⟨a, due⟩

theorem Alarmed.deadlines (i : start.Alarmed window ms) : start.Deadlines window ms := by
  have orderly := i.timed.settled.coupled.orderly
  have armed : ∀ a due, ⟨a, due⟩ ∈ (start.steps ms).loader.watchdogs ↔
      a ∈ (start.steps ms).loader.active ∧
        (start.began? ms a).map (· + window) = some due := by
    intro a due
    constructor
    · intro hw
      exact ⟨orderly.watched.mem_iff.mp (List.mem_map_of_mem hw), i.due _ hw⟩
    · rintro ⟨ha, hdue⟩
      obtain ⟨w, hw, rfl⟩ := List.mem_map.mp (orderly.watched.mem_iff.mpr ha)
      have same : some w.due = some due := (i.due w hw).symm.trans hdue
      rw [← Option.some.inj same]
      exact hw
  refine ⟨armed, orderly.watched.nodup_iff.mpr orderly.nodup, fun m a hm ha => ?_,
    fun m p f time hm hp hp' hf => ?_, fun a due target ha hdue hle hi => ?_⟩
  · obtain ⟨type, hsettled⟩ := mem_endings.mp ha
    obtain ⟨target, rfl⟩ := i.timed.fires_of_endType? hm type
    rcases i.timed.fire_cases target with hsame | ⟨w, out⟩
    · -- The move ends a load, so something was due.
      have hnew := (List.mem_filter.mp hsettled).2
      rw [hsame, Bool.and_not_self] at hnew
      cases hnew
    · rw [out.endings, List.mem_singleton] at ha
      obtain rfl : a = w.attempt := congrArg Prod.fst ha
      obtain ⟨t, h, x, l', -, -, -, -, fired⟩ := out.effect
      exact ⟨target, w.due, rfl, i.due w (Loader.nextDue?_mem out.next).1, out, by rw [fired]⟩
  · rcases (i.timed.rested.fails_by hm.outer).failed p f hp' with before | ⟨s, hs, hcause⟩
    · exact absurd before hp
    · obtain rfl := LoadFailure.type_of_causeOf_timedOut (hcause.symm.trans hf)
      obtain ⟨target, rfl⟩ := i.timed.fires_of_endType? hm hs
      rcases i.timed.fire_cases target with hsame | ⟨w, out⟩
      · rw [hsame] at hp'
        exact absurd hp' hp
      · obtain ⟨t, h, x, l', ha, -, -, ended, fired⟩ := out.effect
        refine ⟨target, w, t, h, rfl, out, ha, ?_⟩
        by_contra hne
        rw [fired] at hp'
        exact hp ((ended.ended.others p hne).symm.trans hp')
  · have hw : ⟨a, due⟩ ∈ (start.steps ms).loader.watchdogs := (armed a due).mpr ⟨ha, hdue⟩
    refine ⟨fun hp => ?_, i.timed.fires hi hw hle⟩
    obtain ⟨w, hsome⟩ := Loader.nextDue?_of_due hw hle
    rw [hp.clocked target rfl hi] at hsome
    cases hsome

/-- A loader as it is opened has no loads. -/
theorem Alarmed.opened (policy : Policy) (resolve : ChunkId → Except Fault String)
    (hasAsset : ChunkId → Bool) {installed : List (ChunkId × String)} {cache : Cache}
    {registry : Registry} {sink : Metrics.Sink} (hc : Cache.seed installed = .ok cache)
    (hs : sink.Steady) (he : registry.handles = []) :
    Alarmed policy.timeout { loader := .whole policy resolve hasAsset cache registry sink } [] where
  timed :=
    { rested := .opened _ policy resolve hasAsset hc registry sink
      settled :=
        ⟨Loader.coupled_whole policy resolve hasAsset hc registry hs, fun s h => nomatch h⟩
      undecided := fun k t o ht ho => by
        simp [steps, Loader.whole, Promises.outcome?, Table.get?] at ho
      housed := ⟨fun a x hx => by simp [steps, Loader.whole, Table.get?] at hx, .of_empty he⟩
      unqueued := fun k e hm => nomatch hm
      window := rfl }
  past := fun a time h => nomatch h
  due := fun w hw => nomatch hw

/--
Every load of a whole loader that waits is due when the window has passed since it began, whoever
joins it meanwhile. It times out then, for all who wait for its chunk, unless it has ended before;
no watchdog ends another load than its own, and nothing but a watchdog makes a load time out. The
sink refuses no count.
-/
theorem deadlines_kept {policy : Policy} {resolve : ChunkId → Except Fault String}
    {hasAsset : ChunkId → Bool} {installed : List (ChunkId × String)} {cache : Cache}
    {registry : Registry} {sink : Metrics.Sink} {ms : List Move}
    (hc : Cache.seed installed = .ok cache) (hs : sink.Steady) (he : registry.handles = [])
    (hms : Admits Punctual { loader := .whole policy resolve hasAsset cache registry sink } ms) :
    Deadlines policy.timeout { loader := .whole policy resolve hasAsset cache registry sink } ms := by
  refine Alarmed.deadlines ?_
  induction ms using List.reverseRecOn with
  | nil => exact .opened policy resolve hasAsset hc hs he
  | append_singleton ms m ih =>
    obtain ⟨before, hm, -⟩ := admits_append.mp hms
    exact (ih before).concat hm

/-- The first attempt fails, and the second one is due by its own time, not by that of the first. -/
theorem deadlines_kept_after_retry :
    let a : ChunkId := .name "a"
    let opened : Run :=
      { loader := .whole {} (.ok ·.text) (fun _ => true) {} (.document [] 0) (.tally {}) }
    let ms : List Move :=
      [.setClock 5, .invoke (.request a), .invoke (.request a), .invoke (.dispatch 0 "error"),
        .setClock 7, .invoke (.request a)]
    opened.Deadlines 120 ms ∧ (opened.steps ms).loader.active = [1] ∧
      opened.began? ms 0 = some 5 ∧ opened.began? ms 1 = some 7 := by
  intro a opened ms
  have hc : Cache.seed [] = .ok {} := rfl
  have plain : ∀ (r : Run) (op : Operation), op.Outer → op.endType? ≠ some "timeout" →
      (∀ k e, op ≠ .reportLater k e) → (∀ h, op ≠ .attach h) → r.Punctual (.invoke op) := by
    intro r op outer unsaid report attach
    refine ⟨outer, ?_, ?_, nofun, ?_⟩
    · rintro _ ⟨⟩
      exact unsaid
    · rintro k e ⟨⟩
      exact absurd rfl (report k e)
    · rintro h ⟨⟩
      exact absurd rfl (attach h)
  have clock : ∀ (r : Run) (now : Float), r.loader.watchdogs.length = 0 →
      r.Punctual (.setClock now) := by
    intro r now hw
    refine ⟨trivial, nofun, nofun, fun t _ _ => ?_, nofun⟩
    simp [Loader.nextDue?, List.length_eq_zero_iff.mp hw]
  have asks : ∀ r : Run, r.Punctual (.invoke (.request a)) := fun r =>
    plain r _ trivial (by simp [Operation.endType?]) nofun nofun
  have fails : ∀ r : Run, r.Punctual (.invoke (.dispatch 0 "error")) := fun r =>
    plain r _ trivial (by simp [Operation.endType?]) nofun nofun
  have hms : opened.Admits Punctual ms :=
    ⟨clock _ _ (by decide), asks _, asks _, fails _, clock _ _ (by decide), asks _, trivial⟩
  have second : opened.began? ms 1 = some 7 := by
    rw [began?, if_neg (by decide), began?, if_neg (by decide), began?, if_neg (by decide), began?,
      if_neg (by decide), began?, if_neg (by decide), began?, if_pos (by decide)]
    rfl
  refine ⟨?_, by decide, rfl, second⟩
  exact @deadlines_kept {} (.ok ·.text) (fun _ => true) [] {} (.document [] 0) (.tally {}) ms hc
    (Metrics.Sink.steady_tally {}) rfl hms

end Run

end SingleFlight
