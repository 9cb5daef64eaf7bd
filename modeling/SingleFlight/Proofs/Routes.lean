/-
SingleFlight.Proofs.Routes — all ways of ending a load agree.

A load can be ended by a signal of its handle, by a report for its chunk, by its
watchdog and by a shutdown. The four ways run through different code: a slot of
the handle, the active loads and the entry behind them, the clock, the list of
loads to abort. But if the load is the only one that its handle ever had, and
nobody else has touched the handle's slots, then all four find the same load
unsettled and end it by the same function, so they lead to the same loader.
After that none of them finds anything to end.

* `Change.lined`, `Act.lined`, `Rested.lined_step` — the slots of a handle hold
  its loads, also in a whole loader.
* `Change.ticket_cases`, `Act.ticket_cases` — where attempts in flight come
  from, and what their promises can be.
* `Loader.Passed` — a load that has ended, and its attempt with it;
  `Act.passed` keeps it, and `Passed.over_of_orderly` says what signals come
  to then.
* `Coupled.settleLoad_eq` — the end of a load, written out.
* `Run.routes_agree` — the result.
-/
import SingleFlight.Proofs.Acts
import SingleFlight.Proofs.Histories
import SingleFlight.Proofs.Lines

namespace SingleFlight

/-! ## §1 The line of a handle, in a whole loader -/

namespace Loader

variable {asked : ChunkId → Prop} {m : Move} {l₀ l l' : Loader} {h : HandleId}
  {P : String → Option CallbackId → Prop}

theorem Change.lined (hc : Change asked l l') (hP : ∀ type, P type none)
    (i : l₀.Lined P l h) : l₀.Lined P l' h := by
  cases hc with
  | kept hf he ho =>
    obtain ⟨ready, hs⟩ := l.newPromise.1.settlePromise_eq l.newPromise.2 .ok
    rw [hs]
    exact i.same rfl rfl
  | @abandoned t ht =>
    unfold abandon
    split
    · exact i.same rfl rfl
    · exact i
  | made chunk url =>
    exact i.keep rfl (.add _) (.add rfl fun _ => Handle.slotFor_unset hP rfl rfl)
  | @created resolve t url hc ht hw hr hf fetches asks =>
    have made : (l.handles.add (l.madeHandle t.chunk url)).update l.handles.size
        (·.observe l.attempts.size) =
          l.handles.add ((l.madeHandle t.chunk url).observe l.attempts.size) :=
      Table.update_add_size ..
    refine i.begin rfl (by rw [made]; exact .add _) (fun _ => ?_) (fun hne => ?_) ?_
    · exact ⟨_, by rw [made, Table.get?_add_size]⟩
    · exact .add made fun he => absurd he hne
    · rintro rfl - y hy
      rw [made, Table.get?_add_size] at hy
      cases hy
      exact ⟨_, rfl, .inr ⟨Table.get?_size _, Handle.slotFor_unset hP rfl rfl⟩⟩
  | @adopted t url k ht hf hl =>
    obtain ⟨x, hx, -⟩ := Option.any_eq_true _ _ |>.mp hl
    refine i.begin rfl (.update _ _) (fun _ => Table.Kept.update _ _ _ _ hx) (fun hne => ?_) ?_
    · exact .update rfl fun he => absurd he hne
    · rintro rfl - y hy
      rw [Table.get?_update_self hx] at hy
      cases hy
      exact ⟨x, rfl, .inl hx⟩
  | @found t url k ht hf hl =>
    exact i.begin rfl (.update _ _) nofun (fun hne => .update rfl fun he => absurd he hne)
      fun _ => nofun
  | @concluded a x ha hx e =>
    rw [detach_eq]
    exact i.conclude ha hx rfl rfl
  | @settled t ht e =>
    obtain ⟨ready, log, hs⟩ := l.settleEntry_eq t e
    rw [hs]
    exact i.same rfl rfl
  | @aborted t ht =>
    obtain ⟨o, ready, hs⟩ := l.abortEntry_eq t
    rw [hs]
    exact i.same rfl rfl
  | _ => exact i.same rfl rfl

/-- Only who plants a handle or assigns its fields can write to its slots from outside. -/
theorem Act.lined (ha : Act asked l m l') (hP : ∀ type, P type none) (hm : ¬m.Assigns)
    (hp : ∀ handle, m ≠ .invoke (.plant handle)) (i : l₀.Lined P l h) : l₀.Lined P l' h := by
  have inner : ∀ {l₁ : Loader}, Inner l l₁ → l₀.Lined P l₁ h := by
    rintro l₁ ⟨_, _, _, rfl⟩
    exact i.same rfl rfl
  have outer : ∀ {l₁ : Loader}, Outer l l₁ → l₀.Lined P l₁ h := by
    rintro l₁ ⟨_, _, _, rfl⟩
    exact i.same rfl rfl
  cases ha with
  | work hc => exact hc.lined hP i
  | spare handle hs =>
    exact i.keep rfl (.add _) (.add rfl fun _ => Handle.slotFor_unset hP hs.1 hs.2)
  | planted handle => exact absurd rfl (hp handle)
  | attached k => exact outer (l.outer_attach k)
  | removed k => exact outer (l.outer_remove k)
  | assigned k hf hs =>
    refine i.keep rfl (.update _ _) (.update rfl fun _ x _ => .inl ?_)
    exact Handle.slotFor_congr (hs hm x).1 (hs hm x).2.1
  | cancelled p => exact inner (l.inner_cancelPromise p)
  | taskCancelled t => exact inner (l.inner_cancelTask t)
  | @told t p rest hr => exact inner (l.inner_childSettled rest t p)
  | @woken t rest hr => exact inner (l.inner_wakeTask rest t)
  | @awaited t chunks ps ht hp => exact inner (l.inner_await t ps)
  | _ => exact i.same rfl rfl

end Loader

theorem Run.Rested.lined_step {asked : ChunkId → Prop} {m : Move} {r : Run} {h : HandleId}
    {l₀ : Loader} {P : Option CallbackId → Prop} (hP : P none) (hr : r.Rested asked)
    (hm : m.Outer) (ha : m.Asks asked) (hl : r.LeavesLine P h m)
    (i : l₀.Lined (fun _ => P) r.loader h) : l₀.Lined (fun _ => P) (r.step m).loader h := by
  have acted : ¬m.Assigns → (∀ handle, m ≠ .invoke (.plant handle)) →
      l₀.Lined (fun _ => P) (r.step m).loader h := fun hn hp =>
    (hr.acts hm ha).1.keeps (fun _ _ _ act i => act.lined (fun _ => hP) hn hp i) hr.whole i
  cases m with
  | invoke op =>
    cases op with
    | plant handle => exact hl.plant (fun _ _ => id) i
    | assign k onLoad onError loading => exact hl.assign (fun _ _ => id) i
    | _ => exact acted id (by simp)
  | _ => exact acted id (by simp)

/-! ## §2 Attempts that have ended -/

namespace Promises

theorem outcome?_settle_eq_or (ps : Promises) (p q : PromiseId) (o : Outcome) :
    (ps.settle p o).outcome? q = ps.outcome? q ∨ (ps.settle p o).outcome? q = some o := by
  by_cases hq : q = p
  · subst hq
    cases hp : ps.isPending q with
    | true => exact .inr (outcome?_settle_of_isPending hp o)
    | false =>
      rw [settle, hp]
      exact .inl rfl
  · exact .inl (outcome?_settle_of_ne ps p q o hq)

/-- A promise is as it was, or was cancelled. -/
theorem outcome?_cancelAll_eq_or (promises : List PromiseId) (ps : Promises) (q : PromiseId) :
    (ps.cancelAll promises).outcome? q = ps.outcome? q ∨
      (ps.cancelAll promises).outcome? q = some .cancelled := by
  induction promises generalizing ps with
  | nil => exact .inl rfl
  | cons p rest ih =>
    rcases ih (ps.settle p .cancelled) with h | h
    · rw [show ps.cancelAll (p :: rest) = (ps.settle p .cancelled).cancelAll rest from rfl, h]
      exact outcome?_settle_eq_or ps p q .cancelled
    · exact .inr h

end Promises

namespace Loader

variable {asked : ChunkId → Prop} {m : Move} {l l' : Loader} {a : AttemptId} {t : Ticket}

/-- Where an attempt in flight comes from: it was in flight before, or its promise is new. -/
theorem Change.ticket_cases (hc : Change asked l l') (w : Whole asked l) {k : ChunkId}
    (ht : l'.cache.ticketOf? k = some t) :
    (l.cache.ticketOf? k = some t ∧
      l'.promises.outcome? t.promise = l.promises.outcome? t.promise) ∨
        l.promises.table.size ≤ t.promise ∧ l'.promises.outcome? t.promise = none := by
  -- An attempt ends, and the promises of the others are none of its business.
  have ended : ∀ {t' : Ticket} {o : Outcome} {cache : Cache}, l.cache.honours t' = true →
      (∀ k, cache.ticketOf? k = if k = t'.chunk then none else l.cache.ticketOf? k) →
      cache.ticketOf? k = some t →
        l.cache.ticketOf? k = some t ∧
          (l.promises.settle t'.promise o).outcome? t.promise = l.promises.outcome? t.promise := by
    intro t' o cache hh tickets hk
    rw [tickets] at hk
    split at hk
    · cases hk
    · rename_i hne
      obtain ⟨entry, hentry, hprom⟩ := Cache.honours_iff.mp hh
      have ticket : l.cache.ticketOf? t'.chunk = some ⟨t'.chunk, entry.promise, entry.attempt⟩ :=
        Cache.ticketOf?_eq_some.mpr ⟨entry, hentry, rfl⟩
      refine ⟨hk, Promises.outcome?_settle_of_ne _ _ _ _ fun heq => hne ?_⟩
      exact w.distinct k t'.chunk t _ hk ticket (heq.trans hprom.symm)
  cases hc with
  | skipped chunk ho =>
    refine .inl ⟨?_, rfl⟩
    rw [← Cache.ticketOf?_mark _ chunk k (e := .skipped) nofun]
    exact ht
  | @joined chunk p h ho =>
    refine .inl ⟨?_, rfl⟩
    rw [← Cache.ticketOf?_join _ chunk k h]
    exact ht
  | kept h he ho =>
    obtain ⟨ready, hs⟩ := l.newPromise.1.settlePromise_eq l.newPromise.2 .ok
    rw [hs] at ht ⊢
    change l.cache.ticketOf? k = some t at ht
    have hne : t.promise ≠ l.promises.create.2 := Nat.ne_of_lt (w.made k t ht)
    refine .inl ⟨ht, ?_⟩
    change (l.promises.create.1.settle l.promises.create.2 .ok).outcome? t.promise = _
    rw [Promises.outcome?_settle_of_ne _ _ _ _ hne, Promises.outcome?_create]
  | @begun chunk h ho ha =>
    change (l.cache.begin chunk l.promises.create.2).1.ticketOf? k = some t at ht
    change _ ∧ l.promises.create.1.outcome? t.promise = _ ∨
      _ ∧ l.promises.create.1.outcome? t.promise = none
    rw [Promises.outcome?_create]
    rw [Cache.ticketOf?_begin] at ht
    split at ht
    · cases ht
      exact .inr ⟨Nat.le_refl _, Promises.outcome?_of_le _ _ (Nat.le_refl _)⟩
    · exact .inl ⟨ht, rfl⟩
  | @abandoned t' h =>
    unfold abandon at ht ⊢
    split at ht
    · rename_i hh
      rw [if_pos hh]
      rw [Cache.ticketOf?_drop] at ht
      split at ht
      · cases ht
      · exact .inl ⟨ht, rfl⟩
    · rename_i hh
      rw [if_neg hh]
      exact .inl ⟨ht, rfl⟩
  | @concluded a x ha hx e =>
    rw [detach_eq] at ht ⊢
    exact .inl ⟨ht, rfl⟩
  | @settled t' h e =>
    obtain ⟨ready, log, hs⟩ := l.settleEntry_eq t' e
    rw [hs] at ht ⊢
    exact .inl (ended h (fun k => Cache.ticketOf?_ended ..) ht)
  | @aborted t' h =>
    obtain ⟨o, ready, hs⟩ := l.abortEntry_eq t'
    rw [hs] at ht ⊢
    exact .inl (ended h (fun k => Cache.ticketOf?_drop ..) ht)
  | _ => exact .inl ⟨ht, rfl⟩

/-- The promise of an attempt that stays in flight can be cancelled, and nothing else. -/
theorem Act.ticket_cases (ha : Act asked l m l') (w : Whole asked l) {k : ChunkId}
    (ht : l'.cache.ticketOf? k = some t) :
    (l.cache.ticketOf? k = some t ∧
      (l'.promises.outcome? t.promise = l.promises.outcome? t.promise ∨
        l'.promises.outcome? t.promise = some .cancelled)) ∨
      l.promises.table.size ≤ t.promise ∧ l'.promises.outcome? t.promise = none := by
  have same : ∀ {l₁ : Loader}, l₁.cache = l.cache → l₁.promises = l.promises →
      l₁.cache.ticketOf? k = some t →
        l.cache.ticketOf? k = some t ∧
          (l₁.promises.outcome? t.promise = l.promises.outcome? t.promise ∨
            l₁.promises.outcome? t.promise = some .cancelled) := by
    intro l₁ hc hp hk
    rw [hc] at hk
    exact ⟨hk, .inl (by rw [hp])⟩
  cases ha with
  | work h =>
    rcases h.ticket_cases w ht with ⟨hk, heq⟩ | new
    · exact .inl ⟨hk, .inl heq⟩
    · exact .inr new
  | @marked chunk e he =>
    refine .inl ⟨?_, .inl rfl⟩
    rw [← Cache.ticketOf?_mark _ chunk k he]
    exact ht
  | attached h =>
    obtain ⟨_, _, _, h⟩ := l.outer_attach h
    rw [h] at ht ⊢
    exact .inl (same rfl rfl ht)
  | removed h =>
    obtain ⟨_, _, _, h⟩ := l.outer_remove h
    rw [h] at ht ⊢
    exact .inl (same rfl rfl ht)
  | cancelled p =>
    obtain ⟨ready, h⟩ := l.settlePromise_eq p .cancelled
    unfold cancelPromise at ht ⊢
    rw [h] at ht ⊢
    exact .inl ⟨ht, Promises.outcome?_settle_eq_or ..⟩
  | taskCancelled task =>
    unfold cancelTask at ht ⊢
    split at ht
    · exact .inl (same rfl rfl ht)
    · split at ht
      · rename_i w _ hcan
        obtain ⟨ps, ready, h⟩ := l.cancelAll_eq w.children
        obtain ⟨hp, -⟩ := cancelAll_promises w.children l
        rw [h] at hp ht
        simp only [hcan, if_true, h]
        have hp' : ps = l.promises.cancelAll w.children := hp
        subst hp'
        exact .inl ⟨ht, Promises.outcome?_cancelAll_eq_or ..⟩
      · rename_i hcan
        simp only [hcan]
        exact .inl (same rfl rfl ht)
    · exact .inl (same rfl rfl ht)
  | @told task p rest h =>
    obtain ⟨_, _, h⟩ := childSettled_eq { l with ready := rest } task p
    rw [h] at ht ⊢
    exact .inl (same rfl rfl ht)
  | @woken task rest h =>
    obtain ⟨_, h⟩ := wakeTask_eq { l with ready := rest } task
    rw [h] at ht ⊢
    exact .inl (same rfl rfl ht)
  | @awaited task chunks ps h hp =>
    obtain ⟨_, _, h⟩ := l.await_eq task ps
    rw [h] at ht ⊢
    exact .inl (same rfl rfl ht)
  | _ => exact .inl (same rfl rfl ht)

/-- The promises of attempts in flight have no outcome, unless they were cancelled. -/
def Undecided (l : Loader) : Prop :=
  ∀ k t o, l.cache.ticketOf? k = some t → l.promises.outcome? t.promise = some o → o = .cancelled

theorem Act.undecided (ha : Act asked l m l') (w : Whole asked l) (u : l.Undecided) :
    l'.Undecided := by
  intro k t o ht ho
  rcases ha.ticket_cases w ht with ⟨hk, heq | hcan⟩ | ⟨-, hnone⟩
  · exact u k t o hk (heq ▸ ho)
  · rw [hcan] at ho
    exact (Option.some.inj ho).symm
  · rw [hnone] at ho
    cases ho

theorem Change.later (hc : Change asked l l') : l.Later l' := by
  cases hc with
  | kept hf he ho =>
    obtain ⟨ready, hs⟩ := l.newPromise.1.settlePromise_eq l.newPromise.2 .ok
    rw [hs]
    exact .of_eq rfl
  | @abandoned t ht =>
    unfold abandon
    split
    · exact .of_eq rfl
    · exact .refl l
  | created => exact .add rfl
  | adopted => exact .add rfl
  | found => exact .add rfl
  | @concluded a x ha hx e =>
    rw [detach_eq]
    exact .settle rfl
  | @settled t ht e =>
    obtain ⟨ready, log, hs⟩ := l.settleEntry_eq t e
    rw [hs]
    exact .of_eq rfl
  | @aborted t ht =>
    obtain ⟨o, ready, hs⟩ := l.abortEntry_eq t
    rw [hs]
    exact .of_eq rfl
  | _ => exact .of_eq rfl

theorem Act.later (ha : Act asked l m l') : l.Later l' := by
  have inner : ∀ {l₁ : Loader}, Inner l l₁ → l.Later l₁ := by
    rintro l₁ ⟨_, _, _, rfl⟩
    exact .of_eq rfl
  have outer : ∀ {l₁ : Loader}, Outer l l₁ → l.Later l₁ := by
    rintro l₁ ⟨_, _, _, rfl⟩
    exact .of_eq rfl
  cases ha with
  | work hc => exact hc.later
  | attached k => exact outer (l.outer_attach k)
  | removed k => exact outer (l.outer_remove k)
  | cancelled p => exact inner (l.inner_cancelPromise p)
  | taskCancelled t => exact inner (l.inner_cancelTask t)
  | @told t p rest hr => exact inner (l.inner_childSettled rest t p)
  | @woken t rest hr => exact inner (l.inner_wakeTask rest t)
  | @awaited t chunks ps ht hp => exact inner (l.inner_await t ps)
  | _ => exact .of_eq rfl

/-- A load has ended, and the attempt that it carried out is in flight no more. -/
structure Passed (l : Loader) (a : AttemptId) (t : Ticket) : Prop where
  settled : ∃ x, l.attempts.get? a = some x ∧ x.settled = true
  issued : t.promise < l.promises.table.size
  gone : ∀ k t', l.cache.ticketOf? k = some t' → t'.promise ≠ t.promise

/-- No act brings a load back that has ended, or its attempt. -/
theorem Act.passed (ha : Act asked l m l') (w : Whole asked l) (p : l.Passed a t) :
    l'.Passed a t where
  settled := by
    obtain ⟨x, hx, hs⟩ := p.settled
    exact ⟨x, ha.later a x hx hs, hs⟩
  issued := Nat.lt_of_lt_of_le p.issued ha.onward.1.size
  gone := by
    intro k t' ht'
    rcases ha.ticket_cases w ht' with ⟨hk, -⟩ | ⟨hle, -⟩
    · exact p.gone k t' hk
    · exact (Nat.ne_of_lt (Nat.lt_of_lt_of_le p.issued hle)).symm

/-- Nothing that could end the load finds it any more. -/
structure Over (l : Loader) (a : AttemptId) (t : Ticket) : Prop where
  signalled : ∀ e foreign rest, signal e foreign (a :: rest) l = (l, .through)
  aborted : ∀ rest, abortAll (a :: rest) l = abortAll rest l
  disarmed : ∀ w ∈ l.watchdogs, w.attempt ≠ a
  inactive : a ∉ l.active
  stale : l.cache.honours t = false

theorem Passed.over_of_orderly (p : l.Passed a t) (ho : l.Orderly none) : l.Over a t := by
  obtain ⟨x, hx, hs⟩ := p.settled
  have through : ∀ e foreign rest, signal e foreign (a :: rest) l = (l, .through) := by
    intro e foreign rest
    simp only [signal, hx, hs, if_true]
  have inactive := ho.not_mem_active_of_settled hx hs
  refine ⟨through, fun rest => ?_, fun w hw he => ?_, inactive, ?_⟩
  · simp only [abortAll, settleLoad, through]
  · exact inactive (ho.watched.mem_iff.mp (he ▸ List.mem_map_of_mem hw))
  · cases hh : l.cache.honours t with
    | false => rfl
    | true =>
      obtain ⟨entry, hentry, hprom⟩ := Cache.honours_iff.mp hh
      exact absurd hprom (p.gone t.chunk _ (Cache.ticketOf?_eq_some.mpr ⟨entry, hentry, rfl⟩))

/-! ## §3 The end of a load, written out -/

/-- The load of an attempt in flight ends, and the attempt with it. -/
theorem Coupled.settleLoad_eq (c : Coupled l none none) {h : HandleId}
    (ha : l.attempts.get? a = some { chunk := t.chunk, handle := h, done := .redeem t })
    (ht : l.cache.ticketOf? t.chunk = some t) (e : LoadEvent) :
    ∃ ready log, l.settleLoad a e =
      ({ l with
          cache := if e.isLoad then l.cache.finish t.chunk else l.cache.drop t.chunk
          promises := l.promises.settle t.promise (l.outcomeOf t.chunk e)
          attempts := l.attempts.update a ({ · with settled := true })
          handles := l.handles.update h (·.release)
          watchdogs := l.watchdogs.filter (·.attempt ≠ a)
          registry := l.registryAfter h e
          active := l.active.filter (· ≠ a)
          sink := countedEnd l.sink e.type
          ready
          log }, .through) := by
  obtain ⟨log, hcon⟩ := conclude_counted c.steady a
    { chunk := t.chunk, handle := h, done := .redeem t } e
  obtain ⟨ready, log', hset⟩ := settleEntry_eq
    { l with
      attempts := l.attempts.update a ({ · with settled := true })
      handles := l.handles.update h (·.release)
      watchdogs := l.watchdogs.filter (·.attempt ≠ a)
      registry := l.registryAfter h e
      active := l.active.filter (· ≠ a)
      sink := countedEnd l.sink e.type
      log } t e
  refine ⟨ready, log', ?_⟩
  simp only [Loader.settleLoad, Loader.signal, ha, hcon, Bool.false_eq_true, if_false]
  rw [redeem_of_honours (by exact Cache.honours_of_ticketOf? ht), hset]
  rfl

/-! ### The time at which a load ends -/

theorem conclude_at (l : Loader) (now : Float) (a : AttemptId) (x : Attempt) (e : LoadEvent) :
    ({ l with now } : Loader).conclude a x e =
      ({ (l.conclude a x e).1 with now }, (l.conclude a x e).2) := by
  have hreg : ({ l with now } : Loader).registryAfter x.handle e = l.registryAfter x.handle e := by
    unfold registryAfter remove
    cases l.handles.get? x.handle <;> rfl
  unfold conclude count
  rw [detach_eq, detach_eq, hreg]
  dsimp only
  cases (l.sink.add outcomesTotal (.whole 1) [("outcome", e.type)]).2 with
  | some f => rfl
  | none =>
    simp only [Option.map_none, noteOutcome]
    cases e.isLoad <;> rfl

theorem settlePromise_at (l : Loader) (now : Float) (p : PromiseId) (o : Outcome) :
    ({ l with now } : Loader).settlePromise p o = { l.settlePromise p o with now } := by
  unfold settlePromise
  split <;> rfl

theorem redeem_at (l : Loader) (now : Float) (t : Ticket) (e : LoadEvent) :
    ({ l with now } : Loader).redeem t e = { l.redeem t e with now } := by
  unfold redeem settleEntry
  split
  · split
    · exact settlePromise_at { l with cache := l.cache.finish t.chunk } now t.promise .ok
    · exact settlePromise_at
        ({ l with cache := l.cache.drop t.chunk }.note .cache .warning
          (l.failureOf t.chunk e).message) now t.promise (.failed (l.failureOf t.chunk e))
  · rfl

/-- When a load ends does not matter. -/
theorem settleLoad_at (l : Loader) (now : Float) (a : AttemptId) (e : LoadEvent) :
    ({ l with now } : Loader).settleLoad a e =
      ({ (l.settleLoad a e).1 with now }, (l.settleLoad a e).2) := by
  unfold settleLoad signal
  dsimp only
  cases hx : l.attempts.get? a with
  | none => rfl
  | some x =>
    dsimp only
    cases x.settled with
    | true => rfl
    | false =>
      simp only [Bool.false_eq_true, if_false, conclude_at]
      cases hcon : l.conclude a x e with
      | mk l' refusal =>
        cases refusal with
        | some f => rfl
        | none =>
          dsimp only
          cases x.done with
          | redeem t =>
            simp only [redeem_at]
            rfl
          | call k => rfl

/-! ## §4 The routes -/

/--
The load of an attempt has ended by a signal of some type, and the attempt with it. Whoever waited
has the outcome, unless they cancelled it before.
-/
structure EndedBy (l : Loader) (a : AttemptId) (h : HandleId) (handle : Handle) (t : Ticket)
    (type : String) (l' : Loader) : Prop where
  entries : l'.cache = if type = "load" then l.cache.finish t.chunk else l.cache.drop t.chunk
  cancelled : l.promises.outcome? t.promise = some .cancelled →
    l'.promises.outcome? t.promise = some .cancelled
  told : l.promises.outcome? t.promise ≠ some .cancelled →
    l'.promises.outcome? t.promise = some
      (if type = "load" then .ok
      else .failed
        { chunk := t.chunk
          cause := LoadFailure.causeOf l.plan.policy.timeout type
          request := some handle.url
          assetKind := l.plan.policy.assetKind })
  others : ∀ p, p ≠ t.promise → l'.promises.outcome? p = l.promises.outcome? p
  attempts : l'.attempts = l.attempts.update a ({ · with settled := true })
  active : l'.active = l.active.filter (· ≠ a)
  watchdogs : l'.watchdogs = l.watchdogs.filter (·.attempt ≠ a)
  registry : l'.registry = if type = "load" then l.registry else l.registry.remove h handle.url
  handles : l'.handles = l.handles.update h (·.release)
  counters : l'.sink = countedEnd l.sink type

/-- The load of an attempt in flight ends as described, for good. -/
theorem Coupled.ended_passed (c : Coupled l none none) (w : Whole asked l) (u : l.Undecided)
    {h : HandleId} {handle : Handle} (hh : l.handles.get? h = some handle)
    (ha : l.attempts.get? a = some { chunk := t.chunk, handle := h, done := .redeem t })
    (ht : l.cache.ticketOf? t.chunk = some t) (type : String) :
    ∃ l', l.settleLoad a (l.signalFrom h type) = (l', .through) ∧
      l.EndedBy a h handle t type l' ∧ l'.Passed a t := by
  obtain ⟨ready, log, hset⟩ := c.settleLoad_eq ha ht (l.signalFrom h type)
  refine ⟨_, hset, ?_, ?passed⟩
  case passed =>
    refine ⟨⟨_, Table.get?_update_self ha _, rfl⟩, ?_, fun k t' ht' => ?_⟩
    · simp only [Promises.size_settle]
      exact c.made _ _ ht
    · rw [Cache.ticketOf?_ended] at ht'
      split at ht'
      · cases ht'
      · rename_i hk
        exact fun heq => hk (w.distinct k t.chunk t' t ht' ht heq)
  have isLoad : (l.signalFrom h type).isLoad = decide (type = "load") := rfl
  have outcome : l.outcomeOf t.chunk (l.signalFrom h type) =
      if type = "load" then .ok
      else .failed
        { chunk := t.chunk
          cause := LoadFailure.causeOf l.plan.policy.timeout type
          request := some handle.url
          assetKind := l.plan.policy.assetKind } := by
    have request : (l.signalFrom h type).request = some handle.url := by
      simp [LoadEvent.request, signalFrom, sourceOf, hh]
    unfold outcomeOf failureOf LoadFailure.ofEvent
    rw [isLoad, request]
    simp only [decide_eq_true_eq]
    rfl
  exact
    { entries := by simp only [isLoad, decide_eq_true_eq]
      cancelled := fun hcan => Promises.outcome?_settle_of_some hcan
      told := by
        intro hne
        have hp : l.promises.isPending t.promise = true := by
          refine Promises.isPending_iff.mpr ⟨c.made _ _ ht, ?_⟩
          cases ho : l.promises.outcome? t.promise with
          | none => rfl
          | some o =>
            rw [u t.chunk t o ht ho] at ho
            exact absurd ho hne
        rw [← outcome]
        exact Promises.outcome?_settle_of_isPending hp _
      others := fun p hp => Promises.outcome?_settle_of_ne _ _ _ _ hp
      attempts := rfl
      active := rfl
      watchdogs := rfl
      registry := by simp only [registryAfter, Loader.remove, hh, isLoad, decide_eq_true_eq]
      handles := rfl
      counters := rfl }

end Loader

namespace Run

/--
Wherever a signal of this type comes from, the load ends in the same state of the loader. Afterwards
its handle tells nobody, a report finds its chunk idle, and whatever happens next, nothing that
could end the load finds it again.
-/
structure Routes (r : Run) (a : AttemptId) (h : HandleId) (t : Ticket) (type : String)
    (l' : Loader) : Prop where
  dispatched : r.step (.invoke (.dispatch h type)) =
    { r with loader := l', answers := r.answers ++ [.nothing] }
  reported : r.step (.invoke (.report t.chunk (r.loader.signalFrom h type))) =
    { r with loader := l', answers := r.answers ++ [.nothing] }
  fired : type = "timeout" → r.idle = true → ∀ target w, r.loader.nextDue? target = some w →
    w.attempt = a → r.step (.fire target) = { r with loader := { l' with now := w.due } }
  closed : type = "abort" → ∀ rest,
    Loader.abortAll (a :: rest) r.loader = Loader.abortAll rest l'
  dispatched_again : ∀ now answers type',
    { r with loader := { l' with now }, answers }.step (.invoke (.dispatch h type')) =
      { r with loader := { l' with now }, answers := answers ++ [.nothing] }
  reported_again : ∀ now answers e, ∃ log,
    { r with loader := { l' with now }, answers }.step (.invoke (.report t.chunk e)) =
      { r with loader := { l' with now, log }, answers := answers ++ [.nothing] }
  gone : ∀ now answers r',
    Reachable (fun _ m => m.Outer) { r with loader := { l' with now }, answers } r' →
      r'.loader.Over a t

section Routes

variable {r : Run} {l' : Loader} {a : AttemptId} {h : HandleId} {x : Handle} {t : Ticket}
  {type : String}

/-- A signal goes to the load that stands alone in the slots of its handle. -/
theorem step_dispatch_alone (hh : r.loader.handles.get? h = some x)
    (slot : x.slotFor type = { waiting := [a] })
    (hset : r.loader.settleLoad a (r.loader.signalFrom h type) = (l', .through)) :
    r.step (.invoke (.dispatch h type)) =
      { r with loader := l', answers := r.answers ++ [.nothing] } := by
  unfold Loader.settleLoad at hset
  simp [step, Loader.invoke, Loader.dispatch, hh, slot, Loader.drive, Loader.perform, hset, after]

/-- A signal of a handle that nobody observes is heard by nobody. -/
theorem step_dispatch_unheard (hh : r.loader.handles.get? h = some x)
    (slot : x.slotFor type = {}) :
    r.step (.invoke (.dispatch h type)) = { r with answers := r.answers ++ [.nothing] } := by
  simp [step, Loader.invoke, Loader.dispatch, hh, slot, Loader.drive, Loader.perform,
    Loader.signal, after]

/-- A report for a chunk that is not in flight leaves a log record. -/
theorem step_report_idle {chunk : ChunkId} (ht : r.loader.cache.ticketOf? chunk = none)
    (e : LoadEvent) :
    ∃ log, r.step (.invoke (.report chunk e)) =
      { r with loader := { r.loader with log }, answers := r.answers ++ [.nothing] } := by
  refine ⟨(r.loader.noteIdle chunk e).log, ?_⟩
  simp only [step, Loader.invoke, Loader.report, ht, Loader.drive, after]
  rfl

/-- A report for the chunk of the load ends the load. -/
theorem step_report_flight (c : Loader.Coupled r.loader none none) (hcar : r.loader.Carries a t)
    (ht : r.loader.cache.ticketOf? t.chunk = some t) {e : LoadEvent}
    (hset : r.loader.settleLoad a e = (l', .through)) :
    r.step (.invoke (.report t.chunk e)) =
      { r with loader := l', answers := r.answers ++ [.nothing] } := by
  simp only [step, Loader.invoke, Loader.report, ht]
  rw [c.drive_report hcar ht, hset]
  rfl

/-- The watchdog of the load ends it, at the time for which it was set. -/
theorem step_fire_due (c : Loader.Coupled r.loader none none) (hi : r.idle = true)
    {target : Float} {w : Watchdog} (hw : r.loader.nextDue? target = some w)
    (hset : r.loader.settleLoad w.attempt (r.loader.endSignal w.attempt "timeout") =
      (l', .through)) :
    r.step (.fire target) = { r with loader := { l' with now := w.due } } := by
  have hf : r.loader.fireNext? target =
      some ({ r.loader with now := w.due }.disarm w.attempt,
        [.signal { waiting := [w.attempt] } (r.loader.endSignal w.attempt "timeout")]) := by
    simp [Loader.fireNext?, hw]
  obtain ⟨w', hw', -, hd⟩ := c.drive_fireNext? hf
  rw [hw] at hw'
  cases hw'
  simp only [step, hi, hf, hd]
  rw [Loader.settleLoad_at, hset]
  simp only [after, Option.toList_none, List.append_nil]

/-- A load that waits alone on its handle is all that either slot holds. -/
theorem slot_alone {l₀ l : Loader} (hl₀ : l₀.attempts = {})
    (i : l₀.Lined (fun _ => (· = none)) l h) (hcar : l.Carries a t)
    (hh : l.handles.get? h = some x) (hon : l.On h a) (sole : ∀ b, l.On h b → b = a)
    (type : String) : x.slotFor type = { waiting := [a] } := by
  obtain ⟨-, k, ha⟩ := hcar
  have together : l₀.Together l h := by
    intro b y hy hyh hys
    obtain rfl := sole b ⟨y, hy, hyh⟩
    rw [ha] at hy
    cases hy
    cases hys
  have line : l₀.loadsSince l h = [a] := by
    refine List.perm_singleton.mp ((List.perm_ext_iff_of_nodup (l₀.nodup_loadsSince l h)
      (by simp)).mpr fun b => ?_)
    rw [Loader.mem_loadsSince, List.mem_singleton, hl₀]
    exact ⟨fun hb => sole b hb.2, fun hb => hb ▸ ⟨Nat.zero_le _, hon⟩⟩
  obtain ⟨hw, hf⟩ := i.slots together x type hh
  rw [line] at hw
  generalize x.slotFor type = s at hw hf
  cases s
  cases hw
  cases hf
  rfl

/-- Whatever happens after its end, nothing finds the load again. -/
theorem over_of_reachable {r' : Run} (rested : r.Rested fun _ => True) (s : r.Settled)
    (passed : r.loader.Passed a t) (hr : Reachable (fun _ m => m.Outer) r r') :
    r'.loader.Over a t := by
  obtain ⟨-, passed'⟩ := Rested.of_reachable (I := fun l => l.Passed a t)
    (fun _ m hm => ⟨hm, m.asks_all⟩) (fun _ _ _ _ _ w act p => act.passed w p) rested passed hr
  exact passed'.over_of_orderly (s.of_reachable hr).coupled.orderly

/-- The load of an attempt in flight, on a handle that was never anybody else's. -/
theorem routes (rested : r.Rested fun _ => True) (s : r.Settled) (u : r.loader.Undecided)
    {l₀ : Loader} (hl₀ : l₀.attempts = {}) (i : l₀.Lined (fun _ => (· = none)) r.loader h)
    (hcar : r.loader.Carries a t) (ht : r.loader.cache.ticketOf? t.chunk = some t)
    (hh : r.loader.handles.get? h = some x) (hon : r.loader.On h a)
    (sole : ∀ b, r.loader.On h b → b = a) (type : String) :
    ∃ l', r.loader.EndedBy a h x t type l' ∧ r.Routes a h t type l' := by
  have c := s.coupled
  have slot := slot_alone hl₀ i hcar hh hon sole type
  have ha : r.loader.attempts.get? a =
      some { chunk := t.chunk, handle := h, done := .redeem t } := by
    obtain ⟨-, k, ha⟩ := hcar
    obtain ⟨y, hy, rfl⟩ := hon
    rw [ha] at hy
    cases hy
    exact ha
  obtain ⟨l', hset, ended, passed⟩ := c.ended_passed rested.whole u hh ha ht type
  obtain ⟨l₁, hset₁, c', -, hidle⟩ := c.settleLoad a (r.loader.signalFrom h type)
  rw [hset] at hset₁
  cases hset₁
  have idle : l'.cache.ticketOf? t.chunk = none := hidle t hcar
  have own : r.loader.endSignal a type = r.loader.signalFrom h type := by
    simp [Loader.endSignal, ha, Loader.signalFrom]
  rw [← own] at hset
  have released : l'.handles.get? h = some x.release := by
    rw [ended.handles, Table.get?_update_self hh]
  have dispatched : r.step (.invoke (.dispatch h type)) =
      { r with loader := l', answers := r.answers ++ [.nothing] } :=
    step_dispatch_alone hh slot (own ▸ hset)
  refine ⟨l', ended,
    { dispatched
      reported := step_report_flight c hcar ht (own ▸ hset)
      fired := ?_
      closed := ?_
      dispatched_again := fun now answers type' => ?_
      reported_again := fun now answers e => ?_
      gone := fun now answers r' hr' => ?_ }⟩
  · rintro rfl hi target w hw rfl
    exact step_fire_due c hi hw hset
  · rintro rfl rest
    simp only [Loader.abortAll, hset]
  · exact step_dispatch_unheard (r := { r with loader := { l' with now }, answers }) released
      (Handle.slotFor_release x type')
  · exact step_report_idle (r := { r with loader := { l' with now }, answers }) idle e
  · have rested' : Rested (fun _ => True) { r with loader := { l' with now }, answers } := by
      have next := (rested.acts (m := .invoke (.dispatch h type)) trivial trivial).2
      rw [dispatched] at next
      exact ⟨next.whole.congr rfl rfl rfl rfl rfl rfl, next.clear⟩
    have settled : Settled { r with loader := { l' with now }, answers } :=
      ⟨c'.congr rfl rfl rfl rfl rfl rfl rfl rfl, s.clear⟩
    exact over_of_reachable rested' settled ⟨passed.settled, passed.issued, passed.gone⟩ hr'

/-- Nobody but loads has written to the slots of the handle. -/
theorem lined_of_reachable {r₀ : Run} (rested : r₀.Rested fun _ => True)
    (hl : r₀.loader.attempts = {}) (hh : r₀.loader.handles = {})
    (hr : Reachable (fun r m => m.Outer ∧ r.LeavesLine (· = none) h m) r₀ r) :
    r.Rested (fun _ => True) ∧ r₀.loader.Lined (fun _ => (· = none)) r.loader h := by
  induction hr with
  | start =>
    exact ⟨rested, fun a x hx => by simp [hl, Table.get?] at hx, Nat.le_refl _, .refl _, .refl,
      fun _ x type hx => by simp [hh, Table.get?] at hx⟩
  | @step _ m _ hm ih =>
    exact ⟨(ih.1.acts hm.1 m.asks_all).2, ih.1.lined_step rfl hm.1 m.asks_all hm.2 ih.2⟩

end Routes

/--
A chunk is in flight, and the handle of its load never had another load, nor did anybody else touch
its slots. A signal of the handle, a report for the chunk, the load's watchdog and a shutdown all
end the load in the same state of the loader, and then none of them finds it again. The sink refuses
no count.
-/
theorem routes_agree {policy : Policy} {resolve : ChunkId → Except Fault String}
    {hasAsset : ChunkId → Bool} {installed : List (ChunkId × String)} {cache : Cache}
    {registry : Registry} {sink : Metrics.Sink} {r : Run} {chunk : ChunkId} {h : HandleId}
    (hc : Cache.seed installed = .ok cache) (hs : sink.Steady)
    (hr : Reachable (fun r m => m.Outer ∧ r.LeavesLine (· = none) h m)
      { loader := .whole policy resolve hasAsset cache registry sink } r)
    (hf : r.loader.cache.state chunk = .inFlight)
    (sole : ∀ b, r.loader.On h b ↔ b ∈ r.loader.loadsOf chunk) (type : String) :
    ∃ a t x l', r.loader.loadsOf chunk = [a] ∧ r.loader.cache.ticketOf? chunk = some t ∧
      r.loader.handles.get? h = some x ∧ r.loader.EndedBy a h x t type l' ∧
        r.Routes a h t type l' := by
  have opened : Settled { loader := .whole policy resolve hasAsset cache registry sink } :=
    ⟨Loader.coupled_whole policy resolve hasAsset hc registry hs, fun s h => nomatch h⟩
  have s : r.Settled := opened.of_reachable (hr.mono fun _ _ hm => hm.1)
  have fresh := Rested.opened (fun _ => True) policy resolve hasAsset hc registry sink
  have undecided : Loader.Undecided (.whole policy resolve hasAsset cache registry sink) := by
    intro k t o ht ho
    simp [Loader.whole, Promises.outcome?, Table.get?] at ho
  have kept : r.Rested (fun _ => True) ∧ r.loader.Undecided :=
    Rested.of_reachable (fun _ m hm => ⟨hm.1, m.asks_all⟩)
      (fun _ _ _ _ _ w act u => act.undecided w u) fresh undecided hr
  have lined := (lined_of_reachable fresh rfl rfl hr).2
  -- The chunk has one load, which is the one of the handle.
  obtain ⟨a, hone⟩ : ∃ a, r.loader.loadsOf chunk = [a] := by
    have hlen := s.coupled.length_loadsOf chunk
    rw [if_pos hf] at hlen
    exact List.length_eq_one_iff.mp hlen
  have ha : a ∈ r.loader.loadsOf chunk := by
    rw [hone]
    exact List.mem_singleton.mpr rfl
  obtain ⟨t, ht, hcar⟩ := s.coupled.mem_loadsOf.mp ha
  have hchunk := Cache.chunk_of_ticketOf? ht
  subst hchunk
  have hon : r.loader.On h a := (sole a).mpr ha
  have only : ∀ b, r.loader.On h b → b = a := by
    intro b hb
    have hb' := (sole b).mp hb
    rw [hone] at hb'
    exact List.mem_singleton.mp hb'
  obtain ⟨x, hx⟩ : ∃ x, r.loader.handles.get? h = some x := by
    obtain ⟨-, y, hy, hys⟩ := (s.coupled.orderly.active_iff a).mp hcar.1
    obtain ⟨z, hz, rfl⟩ := hon
    rw [hy] at hz
    cases hz
    exact lined.placed a y hy hys
  obtain ⟨l', ended, routes⟩ := routes kept.1 s kept.2 rfl lined hcar ht hx hon only type
  exact ⟨a, t, x, l', hone, ht, hx, ended, routes⟩

/-- Of two chunks with an address each, one times out, whoever notices it, and the other goes on. -/
theorem routes_agree_on_timeout :
    let opened : Run :=
      { loader := .whole {} (fun chunk => .ok chunk.text) (fun _ => true) {} (.keyed [] {})
          (.tally {}) }
    let r := opened.steps [.invoke (.request (.name "a")), .invoke (.request (.name "b")), .runJob]
    (∃ a t x l', r.loader.loadsOf (.name "a") = [a] ∧
      r.loader.cache.ticketOf? (.name "a") = some t ∧ r.loader.handles.get? 0 = some x ∧
        r.loader.EndedBy a 0 x t "timeout" l' ∧ r.Routes a 0 t "timeout" l') ∧
      (r.step (.invoke (.dispatch 0 "timeout"))).loader.cache.state (.name "a") = .unknown ∧
        (r.step (.invoke (.dispatch 0 "timeout"))).loader.cache.state (.name "b") = .inFlight := by
  intro opened r
  have hc : Cache.seed [] = .ok {} := rfl
  have hr : Reachable (fun r m => m.Outer ∧ r.LeavesLine (· = none) 0 m) opened r := by
    refine Reachable.start.steps _ fun s m hm => ?_
    simp only [List.mem_cons, List.not_mem_nil, or_false] at hm
    rcases hm with rfl | rfl | rfl
    all_goals exact ⟨trivial, trivial⟩
  have loads : r.loader.loadsOf (.name "a") = [0] := by decide
  have rows : r.loader.attempts.rows =
      [{ chunk := .name "a", handle := 0, done := .redeem ⟨.name "a", 0, 1⟩ },
        { chunk := .name "b", handle := 1, done := .redeem ⟨.name "b", 1, 1⟩ }] := by decide
  have sole : ∀ b, r.loader.On 0 b ↔ b ∈ r.loader.loadsOf (.name "a") := by
    intro b
    unfold Loader.On Table.get?
    rw [loads, rows]
    rcases b with _ | _ | b
    · simp
    · simp
    · simp
  exact ⟨routes_agree hc (Metrics.Sink.steady_tally {}) hr (by decide) sole "timeout",
    by decide, by decide⟩

end Run

end SingleFlight
