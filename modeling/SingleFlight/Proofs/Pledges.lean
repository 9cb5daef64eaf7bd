/-
SingleFlight.Proofs.Pledges — the promises of a cache by itself.

`SingleFlight.Proofs.Tickets` follows the entries of such a cache, as long as its
sink takes every count. Here it is the promises that are followed, from the
request that makes one to the outcome that settles it, and the sink may refuse
what it likes: a count that is refused ends a request after its entry was made,
so an attempt can be in flight that no starter was ever called for.

* `Books` — what counts: the attempts in flight, the promises, who was answered
  with which of them, and the starters that have not returned.
* `Run.Dealt` — all that a move can do to the books, one constructor for each
  kind of change.
* `Books.Sound` — what holds of the books at any time; `Dealt.sound`.
* `Run.Solo.kept` — each move of a cache by itself deals with its books in one of
  these ways, and does to the queue what `Run.readyAfter` says.
* `Run.Audited` — a cache by itself with sound books; histories keep it.
-/
import Mathlib.Logic.Function.Basic
import SingleFlight.Proofs.Histories
import SingleFlight.Proofs.Tickets

namespace SingleFlight

/-! ## §1 Books -/

/-- What a cache by itself has promised, and to whom. -/
structure Books where
  /-- The attempts in flight. -/
  ticket : ChunkId → Option Ticket
  attempts : ChunkId → Nat
  promises : Promises
  handed : List (ChunkId × PromiseId)
  /-- The attempts whose starter has not returned, the innermost first. -/
  starting : List Ticket
  /-- Whether a load was ever requested. -/
  used : Bool

/-- The books of a cache in use. -/
def Run.books (r : Run) : Books where
  ticket := r.loader.cache.ticketOf?
  attempts := r.loader.cache.attemptsAt
  promises := r.loader.promises
  handed := r.loader.handed
  starting := r.suspended.filterMap (·.call.ticket?)
  used := r.loader.cache.used

namespace Books

/-- A promise is backed while the attempt that is to settle it is in flight. -/
def Backed (b : Books) (chunk : ChunkId) (p : PromiseId) : Prop :=
  ∃ t, b.ticket chunk = some t ∧ t.promise = p

/-- What holds of the books at any time. -/
structure Sound (b : Books) : Prop where
  /-- The attempt in flight is the latest one of its chunk. -/
  latest : ∀ k t, b.ticket k = some t → t.chunk = k ∧ t.attempt = b.attempts k
  made : ∀ k t, b.ticket k = some t → t.promise < b.promises.table.size
  /-- No two attempts in flight have one promise. -/
  distinct : ∀ k k' p, b.Backed k p → b.Backed k' p → k = k'
  bounded : ∀ chunk p, (chunk, p) ∈ b.handed → p < b.promises.table.size
  started : ∀ t ∈ b.starting, t.promise < b.promises.table.size
  apart : (b.starting.map (·.promise)).Nodup
  /-- An attempt whose starter has not returned is in flight until its promise is settled. -/
  awaited : ∀ t ∈ b.starting, b.promises.isPending t.promise = true → b.Backed t.chunk t.promise
  used : ∀ k t, b.ticket k = some t → b.used = true

/-- Where a chunk is taken out, attempts in flight still show that the cache was used. -/
theorem Sound.used_of_update {b : Books} (s : b.Sound) {chunk k : ChunkId} {t : Ticket}
    (ht : Function.update b.ticket chunk none k = some t) : b.used = true := by
  rw [Function.update_apply] at ht
  split at ht
  · cases ht
  · exact s.used k t ht

theorem Backed.lt {b : Books} (s : b.Sound) {chunk : ChunkId} {p : PromiseId}
    (h : b.Backed chunk p) : p < b.promises.table.size := by
  obtain ⟨t, ht, rfl⟩ := h
  exact s.made chunk t ht

end Books

namespace Run

variable {r : Run} {m : Move} {b : Books}

/-- The starter that was called with a ticket raises while the attempt is in flight. -/
def Forsakes (r : Run) (t : Ticket) (m : Move) : Prop :=
  ∃ f s outer, m = .raises f ∧ r.suspended = s :: outer ∧ s.call = .start t ∧
    r.books.Backed t.chunk t.promise

/-- What a move has done to the books. -/
inductive Dealt (r : Run) (m : Move) : Books → Prop
  | still {used : Bool} (hu : r.books.used = true → used = true) :
      Dealt r m { r.books with used }
  /-- A request for a chunk in flight is answered with the promise of its attempt. -/
  | joined {chunk : ChunkId} {p : PromiseId} (h : r.books.Backed chunk p) :
      Dealt r m { r.books with handed := r.books.handed ++ [(chunk, p)], used := true }
  /-- A request is answered with a promise that is kept already. -/
  | kept (chunk : ChunkId) :
      Dealt r m { r.books with
        promises := r.books.promises.create.1.settle r.books.promises.create.2 .ok
        handed := r.books.handed ++ [(chunk, r.books.promises.create.2)]
        used := true }
  /-- A request starts an attempt; the starter is called with it, unless a count is refused. -/
  | begun {chunk : ChunkId} (h : r.books.ticket chunk = none) {t : Ticket}
      (ht : t = ⟨chunk, r.books.promises.table.size, r.books.attempts chunk + 1⟩)
      {started : List Ticket} (hs : started = [t] ∨ started = []) :
      Dealt r m
        { ticket := Function.update r.books.ticket chunk (some t)
          attempts := Function.update r.books.attempts chunk t.attempt
          promises := r.books.promises.create.1
          handed := r.books.handed
          starting := started ++ r.books.starting
          used := true }
  /-- A starter returns, and the request is answered, or its error does not matter any more. -/
  | returned {t : Ticket} {rest : List Ticket} (hs : r.books.starting = t :: rest)
      {answers : List (ChunkId × PromiseId)}
      (ha : answers = [(t.chunk, t.promise)] ∨ answers = []) :
      Dealt r m { r.books with handed := r.books.handed ++ answers, starting := rest }
  | forsaken {t : Ticket} (h : r.Forsakes t m) {rest : List Ticket}
      (hs : r.books.starting = t :: rest) :
      Dealt r m { r.books with
        ticket := Function.update r.books.ticket t.chunk none
        starting := rest }
  /-- An attempt in flight ends, and its promise with it. -/
  | ended {t : Ticket} (h : r.books.Backed t.chunk t.promise) (o : Outcome) :
      Dealt r m { r.books with
        ticket := Function.update r.books.ticket t.chunk none
        promises := r.books.promises.settle t.promise o }
  /-- All attempts in flight end. -/
  | closed {promises : Promises} (size : promises.table.size = r.books.promises.table.size)
      (pending : ∀ p, promises.isPending p = true ↔
        r.books.promises.isPending p = true ∧ ∀ k, ¬ r.books.Backed k p) :
      Dealt r m { r.books with ticket := fun _ => none, promises }
  | cancelled {p : PromiseId} (hm : m = .invoke (.cancelPromise p)) :
      Dealt r m { r.books with promises := r.books.promises.settle p .cancelled }

namespace Dealt

/-- Promises are only made, and those that are settled stay so. -/
theorem grown (h : r.Dealt m b) :
    r.books.promises.table.size ≤ b.promises.table.size ∧
      ∀ p < r.books.promises.table.size, b.promises.isPending p = true →
        r.books.promises.isPending p = true := by
  have made : ∀ p < r.books.promises.table.size,
      r.books.promises.create.1.isPending p = true → r.books.promises.isPending p = true := by
    intro p hp h
    rw [Promises.isPending_create, decide_eq_false (Nat.ne_of_lt hp), Bool.false_or] at h
    exact h
  have settled : ∀ {ps : Promises} {q : PromiseId} {o : Outcome} {p : PromiseId},
      (ps.settle q o).isPending p = true → ps.isPending p = true := by
    intro ps q o p h
    rw [Promises.isPending_settle, Bool.and_eq_true] at h
    exact h.1
  cases h with
  | kept chunk => exact ⟨by simp, fun p hp h => made p hp (settled h)⟩
  | begun => exact ⟨by simp, made⟩
  | ended => exact ⟨by simp, fun _ _ => settled⟩
  | closed size pending => exact ⟨Nat.le_of_eq size.symm, fun p _ h => ((pending p).mp h).1⟩
  | cancelled => exact ⟨by simp, fun _ _ => settled⟩
  | _ => exact ⟨Nat.le_refl _, fun _ _ => id⟩

/-- A promise that is not backed never is again. -/
theorem backed_of_backed (h : r.Dealt m b) {chunk : ChunkId} {p : PromiseId}
    (hp : p < r.books.promises.table.size) (hb : b.Backed chunk p) :
    r.books.Backed chunk p := by
  obtain ⟨t, ht, rfl⟩ := hb
  have kept : ∀ {k : ChunkId}, Function.update r.books.ticket k none chunk = some t →
      r.books.Backed chunk t.promise := by
    intro k ht
    rw [Function.update_apply] at ht
    split at ht
    · cases ht
    · exact ⟨t, ht, rfl⟩
  cases h with
  | @begun chunk' hf t' ht' started hs =>
    simp only [Function.update_apply] at ht
    split at ht
    · cases ht
      rw [ht'] at hp
      exact absurd hp (Nat.lt_irrefl _)
    · exact ⟨t, ht, rfl⟩
  | forsaken => exact kept ht
  | ended => exact kept ht
  | closed => cases ht
  | _ => exact ⟨t, ht, rfl⟩

/-- A backed promise stays backed until it is settled, or the starter of its attempt raises. -/
theorem backed (h : r.Dealt m b) {chunk : ChunkId} {p : PromiseId}
    (hb : r.books.Backed chunk p) (hp : b.promises.isPending p = true) :
    b.Backed chunk p ∨ ∃ t, r.Forsakes t m ∧ t.chunk = chunk ∧ t.promise = p ∧
      r.books.starting = t :: b.starting := by
  obtain ⟨t, ht, rfl⟩ := hb
  -- An attempt that ends takes no other chunk with it.
  have other : ∀ {t' : Ticket}, chunk ≠ t'.chunk →
      Function.update r.books.ticket t'.chunk none chunk = some t := by
    intro t' hne
    rw [Function.update_of_ne hne]
    exact ht
  have same : ∀ {t' : Ticket}, r.books.Backed t'.chunk t'.promise → chunk = t'.chunk →
      t'.promise = t.promise := by
    rintro t' ⟨x, hx, hprom⟩ rfl
    rw [ht] at hx
    cases hx
    exact hprom.symm
  cases h with
  | @begun chunk' hf t' ht' started hs =>
    have hne : chunk ≠ chunk' := by
      rintro rfl
      rw [hf] at ht
      cases ht
    exact .inl ⟨t, (Function.update_of_ne hne ..).trans ht, rfl⟩
  | @forsaken t' hfor rest hs =>
    by_cases hk : chunk = t'.chunk
    · obtain ⟨-, -, -, -, -, -, hb⟩ := id hfor
      exact .inr ⟨t', hfor, hk.symm, same hb hk, hs⟩
    · exact .inl ⟨t, other hk, rfl⟩
  | @ended t' hb o =>
    by_cases hk : chunk = t'.chunk
    · rw [same hb hk] at hp
      simp [Promises.isPending_settle] at hp
    · exact .inl ⟨t, other hk, rfl⟩
  | closed size pending => exact absurd ⟨t, ht, rfl⟩ (((pending _).mp hp).2 chunk)
  | _ => exact .inl ⟨t, ht, rfl⟩

/-- A promise that is not backed is settled by a cancellation and nothing else. -/
theorem pending_of_unbacked (h : r.Dealt m b) {p : PromiseId}
    (hn : ∀ k, ¬ r.books.Backed k p) (hm : m ≠ .invoke (.cancelPromise p))
    (hp : r.books.promises.isPending p = true) : b.promises.isPending p = true := by
  have made : r.books.promises.create.1.isPending p = true := by
    rw [Promises.isPending_create, hp, Bool.or_true]
  have hlt : p ≠ r.books.promises.create.2 :=
    Nat.ne_of_lt (Promises.isPending_iff.mp hp).1
  cases h with
  | kept chunk => simp [Promises.isPending_settle, made, hlt]
  | begun => exact made
  | @ended t hb o =>
    have hne : p ≠ t.promise := by
      rintro rfl
      exact hn t.chunk hb
    simp [Promises.isPending_settle, hp, hne]
  | closed size pending => exact (pending p).mpr ⟨hp, hn⟩
  | @cancelled q hq =>
    have hne : p ≠ q := by
      rintro rfl
      exact hm hq
    simp [Promises.isPending_settle, hp, hne]
  | _ => exact hp

/-- Who is answered with a promise that is still pending waits for an attempt in flight. -/
theorem answered (h : r.Dealt m b) (s : r.books.Sound) {chunk : ChunkId} {p : PromiseId}
    (hm : (chunk, p) ∈ b.handed) (hp : b.promises.isPending p = true) :
    (chunk, p) ∈ r.books.handed ∨ b.Backed chunk p := by
  cases h with
  | @joined chunk' q hb =>
    rcases List.mem_append.mp hm with hm | hm
    · exact .inl hm
    · cases List.mem_singleton.mp hm
      exact .inr hb
  | kept chunk' =>
    rcases List.mem_append.mp hm with hm | hm
    · exact .inl hm
    · cases List.mem_singleton.mp hm
      simp [Promises.isPending_settle] at hp
  | @returned t rest hs answers ha =>
    rcases List.mem_append.mp hm with hm | hm
    · exact .inl hm
    · rcases ha with rfl | rfl
      · cases List.mem_singleton.mp hm
        exact .inr (s.awaited t (by rw [hs]; exact List.mem_cons_self ..) hp)
      · cases hm
  | _ => exact .inl hm

/-- A starter that is called is called for an attempt that has just been made. -/
theorem starting (h : r.Dealt m b) :
    b.starting = r.books.starting ∨ (∃ t, r.books.starting = t :: b.starting) ∨
      ∃ t, b.starting = t :: r.books.starting ∧ t.promise = r.books.promises.table.size ∧
        b.Backed t.chunk t.promise := by
  cases h with
  | @begun chunk hf t ht started hs =>
    rcases hs with rfl | rfl
    · refine .inr (.inr ⟨t, rfl, by rw [ht], t, ?_, rfl⟩)
      rw [ht]
      exact Function.update_self ..
    · exact .inl rfl
  | returned hs ha => exact .inr (.inl ⟨_, hs⟩)
  | forsaken hfor hs => exact .inr (.inl ⟨_, hs⟩)
  | _ => exact .inl rfl

/-- The attempts in flight are the old ones, and at most one that has just been made. -/
theorem ticket (h : r.Dealt m b) {k : ChunkId} {t : Ticket} (ht : b.ticket k = some t) :
    r.books.ticket k = some t ∧ b.attempts k = r.books.attempts k ∨
      r.books.ticket k = none ∧ t = ⟨k, r.books.promises.table.size, r.books.attempts k + 1⟩ ∧
        b.attempts k = t.attempt ∧ r.books.promises.table.size < b.promises.table.size ∧
        ∀ k', k' ≠ k → b.ticket k' = r.books.ticket k' := by
  have kept : ∀ {k' : ChunkId}, Function.update r.books.ticket k' none k = some t →
      r.books.ticket k = some t := by
    intro k' ht
    rw [Function.update_apply] at ht
    split at ht
    · cases ht
    · exact ht
  cases h with
  | @begun chunk hf t' ht' started hs =>
    by_cases hk : k = chunk
    · subst hk
      have heq : t' = t := by simpa using ht
      subst heq
      refine .inr ⟨hf, ht', by simp, by simp, fun k' hk' => ?_⟩
      simp [hk']
    · refine .inl ⟨by simpa [hk] using ht, by simp [hk]⟩
  | forsaken => exact .inl ⟨kept ht, rfl⟩
  | ended => exact .inl ⟨kept ht, rfl⟩
  | closed => cases ht
  | _ => exact .inl ⟨ht, rfl⟩

/-- A cache that was used stays so. -/
theorem used (h : r.Dealt m b) (hu : r.books.used = true) : b.used = true := by
  cases h with
  | still h => exact h hu
  | joined => rfl
  | kept => rfl
  | begun => rfl
  | _ => exact hu

/-- A promise that is answered with has been made. -/
theorem lt_of_handed (h : r.Dealt m b) (s : r.books.Sound) {chunk : ChunkId} {p : PromiseId}
    (hm : (chunk, p) ∈ b.handed) : p < b.promises.table.size := by
  have old : (chunk, p) ∈ r.books.handed → p < b.promises.table.size := fun hm =>
    Nat.lt_of_lt_of_le (s.bounded chunk p hm) h.grown.1
  cases h with
  | joined hb =>
    rcases List.mem_append.mp hm with hm | hm
    · exact old hm
    · cases List.mem_singleton.mp hm
      exact hb.lt s
  | kept =>
    rcases List.mem_append.mp hm with hm | hm
    · exact old hm
    · cases List.mem_singleton.mp hm
      simp [Promises.create]
  | @returned t rest hs answers ha =>
    rcases List.mem_append.mp hm with hm | hm
    · exact old hm
    · rcases ha with rfl | rfl
      · cases List.mem_singleton.mp hm
        exact s.started t (by rw [hs]; exact List.mem_cons_self ..)
      · cases hm
  | _ => exact old hm

theorem lt_of_ticket (h : r.Dealt m b) (s : r.books.Sound) {k : ChunkId} {t : Ticket}
    (ht : b.ticket k = some t) : t.promise < b.promises.table.size := by
  rcases h.ticket ht with ⟨old, -⟩ | ⟨-, rfl, -, hlt, -⟩
  · exact Nat.lt_of_lt_of_le (s.made k t old) h.grown.1
  · exact hlt

/-- No two attempts in flight have one promise. -/
theorem distinct (h : r.Dealt m b) (s : r.books.Sound) {k k' : ChunkId} {p : PromiseId}
    (hb : b.Backed k p) (hb' : b.Backed k' p) : k = k' := by
  rcases Nat.lt_or_ge p r.books.promises.table.size with hlt | hge
  · exact s.distinct k k' p (h.backed_of_backed hlt hb) (h.backed_of_backed hlt hb')
  · -- A promise that is new belongs to the one attempt that is.
    obtain ⟨t, ht, rfl⟩ := hb
    obtain ⟨t', ht', heq⟩ := hb'
    rcases h.ticket ht with ⟨old, -⟩ | ⟨-, -, -, -, others⟩
    · exact absurd (s.made k t old) (Nat.not_lt.mpr hge)
    · by_contra hne
      rw [others k' (Ne.symm hne)] at ht'
      exact absurd (heq ▸ s.made k' t' ht') (Nat.not_lt.mpr hge)

/-- A starter that has not returned was there before, or was called for a new attempt. -/
theorem mem_starting (h : r.Dealt m b) {t : Ticket} (ht : t ∈ b.starting) :
    t ∈ r.books.starting ∨ b.Backed t.chunk t.promise := by
  rcases h.starting with hs | ⟨t', hs⟩ | ⟨t', hs, -, hb⟩
  · exact .inl (hs ▸ ht)
  · exact .inl (by rw [hs]; exact List.mem_cons_of_mem _ ht)
  · rw [hs, List.mem_cons] at ht
    rcases ht with rfl | ht
    · exact .inr hb
    · exact .inl ht

/-- No two starters that have not returned were called for one attempt. -/
theorem apart (h : r.Dealt m b) (s : r.books.Sound) : (b.starting.map (·.promise)).Nodup := by
  rcases h.starting with hs | ⟨t', hs⟩ | ⟨t', hs, hprom, -⟩
  · rw [hs]
    exact s.apart
  · have apart := s.apart
    rw [hs] at apart
    exact (List.nodup_cons.mp apart).2
  · rw [hs, List.map_cons, List.nodup_cons]
    refine ⟨fun hm => ?_, s.apart⟩
    obtain ⟨t, ht, heq⟩ := List.mem_map.mp hm
    exact Nat.ne_of_lt (s.started t ht) (heq.trans hprom)

/-- An attempt whose starter has not returned is in flight until its promise is settled. -/
theorem awaited (h : r.Dealt m b) (s : r.books.Sound) {t : Ticket} (ht : t ∈ b.starting)
    (hp : b.promises.isPending t.promise = true) : b.Backed t.chunk t.promise := by
  rcases h.mem_starting ht with hold | hb
  · have back := s.awaited t hold (h.grown.2 _ (s.started t hold) hp)
    rcases h.backed back hp with hb | ⟨t', -, -, hprom, hs⟩
    · exact hb
    · have apart := s.apart
      rw [hs, List.map_cons, List.nodup_cons] at apart
      exact absurd (List.mem_map.mpr ⟨t, ht, hprom.symm⟩) apart.1
  · exact hb

/-- What has an attempt in flight was used. -/
theorem used_of_ticket (h : r.Dealt m b) (s : r.books.Sound) {k : ChunkId} {t : Ticket}
    (ht : b.ticket k = some t) : b.used = true := by
  cases h with
  | begun => rfl
  | joined => rfl
  | kept => rfl
  | still hu => exact hu (s.used k t ht)
  | forsaken => exact s.used_of_update ht
  | ended => exact s.used_of_update ht
  | closed => cases ht
  | _ => exact s.used k t ht

/-- Every change of the books keeps what holds of them. -/
theorem sound (h : r.Dealt m b) (s : r.books.Sound) : b.Sound where
  latest := by
    intro k t ht
    rcases h.ticket ht with ⟨old, hatt⟩ | ⟨-, rfl, hatt, -⟩
    · exact ⟨(s.latest k t old).1, (s.latest k t old).2.trans hatt.symm⟩
    · exact ⟨rfl, hatt.symm⟩
  made := fun _ _ ht => h.lt_of_ticket s ht
  distinct := fun _ _ _ hb hb' => h.distinct s hb hb'
  bounded := fun _ _ hm => h.lt_of_handed s hm
  started := by
    intro t ht
    rcases h.mem_starting ht with old | ⟨x, hx, hprom⟩
    · exact Nat.lt_of_lt_of_le (s.started t old) h.grown.1
    · exact hprom ▸ h.lt_of_ticket s hx
  apart := h.apart s
  awaited := fun _ ht hp => h.awaited s ht hp
  used := fun _ _ ht => h.used_of_ticket s ht

/-- Numbers of attempts only grow. -/
theorem attempts_le (h : r.Dealt m b) (k : ChunkId) : r.books.attempts k ≤ b.attempts k := by
  cases h with
  | @begun chunk hf t ht started hs =>
    by_cases hk : k = chunk
    · subst hk
      simp [ht]
    · simp [hk]
  | _ => exact Nat.le_refl _

end Dealt

end Run

/-! ## §2 A cache by itself -/

/-- A cache by itself: it has no tasks, fetches nothing and is not shut down. Whatever its sink takes. -/
structure Loader.Bare (policy : Policy) (hook : Bool) (l : Loader) : Prop where
  plan : l.plan = { policy, wiring := .user hook }
  tasks : l.tasks = {}
  fetches : l.fetches = {}
  closings : l.closings = {}
  opened : l.closed = false
  single : l.cache.Single

/-- The work that goes on after a call of the starter or of the hook. -/
def Suspension.Plain (s : Suspension) : Prop :=
  (∃ t, s.call = .start t ∧ s.rest = [.started t, .hand t.chunk t.promise]) ∨
    ∃ t e, s.call = .consult t.chunk e ∧ s.rest = [.settle t e]

namespace Loader

variable {policy : Policy} {hook : Bool} {l : Loader}

theorem Bare.settlePromise_eq (h : l.Bare policy hook) (p : PromiseId) (o : Outcome) :
    l.settlePromise p o = { l with promises := l.promises.settle p o } := by
  unfold settlePromise
  split
  · simp [tidings, h.tasks]
  · rename_i hp
    simp [Promises.settle, hp]

theorem Bare.settleEntry_eq (h : l.Bare policy hook) (t : Ticket) (e : LoadEvent) :
    ∃ log, l.settleEntry t e =
      { l with
        cache := if e.isLoad then l.cache.finish t.chunk else l.cache.drop t.chunk
        promises := l.promises.settle t.promise (l.outcomeOf t.chunk e)
        log } := by
  unfold settleEntry outcomeOf
  cases e.isLoad with
  | true =>
    have finished : { l with cache := l.cache.finish t.chunk }.Bare policy hook :=
      { h with single := h.single.finish t.chunk }
    exact ⟨l.log, by simpa using finished.settlePromise_eq t.promise .ok⟩
  | false =>
    have dropped : ({ l with cache := l.cache.drop t.chunk }.note .cache .warning
        (l.failureOf t.chunk e).message).Bare policy hook :=
      { h with single := h.single.drop t.chunk }
    exact ⟨_, by simpa [note] using dropped.settlePromise_eq t.promise _⟩

/-- Aborting attempts leaves no promise of theirs pending. -/
theorem Bare.foldl_abortEntry : ∀ (ts : List Ticket) {l : Loader}, l.Bare policy hook →
    ∃ cache promises, ts.foldl abortEntry l = { l with cache, promises } ∧ cache.Single ∧
      (∀ k, cache.ticketOf? k =
        if k ∈ ts.map (·.chunk) then none else l.cache.ticketOf? k) ∧
      cache.attempts = l.cache.attempts ∧ cache.used = l.cache.used ∧
      promises.table.size = l.promises.table.size ∧
      ∀ p, promises.isPending p = true ↔
        l.promises.isPending p = true ∧ p ∉ ts.map (·.promise)
  | [], l, h => ⟨l.cache, l.promises, rfl, h.single, by simp, rfl, rfl, rfl, by simp⟩
  | t :: ts, l, h => by
    have dropped : { l with cache := l.cache.drop t.chunk }.Bare policy hook :=
      { h with single := h.single.drop t.chunk }
    have aborted : l.abortEntry t = _ := dropped.settlePromise_eq t.promise _
    obtain ⟨cache, promises, heq, single, tickets, attempts, used, size, pending⟩ :=
      foldl_abortEntry ts (l := l.abortEntry t) (by rw [aborted]; exact { dropped with })
    rw [List.foldl_cons, heq]
    rw [aborted] at tickets attempts used size pending ⊢
    refine ⟨cache, promises, rfl, single, fun k => ?_, attempts, used,
      size.trans (Promises.size_settle ..), fun p => ?_⟩
    · rw [tickets, Cache.ticketOf?_drop]
      by_cases hk : k = t.chunk
      · simp [hk]
      · simp [hk]
    · rw [pending, Promises.isPending_settle]
      simp [and_assoc]

/-- Closing the cache ends every attempt in flight and settles its promise. -/
theorem Bare.closeCache_eq (h : l.Bare policy hook) :
    ∃ cache promises, l.closeCache = { l with cache, promises } ∧ cache.Single ∧
      (∀ k, cache.ticketOf? k = none) ∧ cache.attempts = l.cache.attempts ∧
      cache.used = l.cache.used ∧ promises.table.size = l.promises.table.size ∧
      ∀ p, promises.isPending p = true ↔
        l.promises.isPending p = true ∧ ∀ k t, l.cache.ticketOf? k = some t → t.promise ≠ p := by
  obtain ⟨cache, promises, heq, single, tickets, attempts, used, size, pending⟩ :=
    h.foldl_abortEntry l.cache.inFlight
  have flying : ∀ k t, l.cache.ticketOf? k = some t → t ∈ l.cache.inFlight := by
    intro k t ht
    rw [h.single.mem_inFlight, Cache.chunk_of_ticketOf? ht]
    exact ht
  refine ⟨cache, promises, heq, single, fun k => ?_, attempts, used, size, fun p => ?_⟩
  · rw [tickets]
    split
    · rfl
    · rename_i hk
      cases ht : l.cache.ticketOf? k with
      | none => rfl
      | some t =>
        exact absurd (List.mem_map.mpr ⟨t, flying k t ht, Cache.chunk_of_ticketOf? ht⟩) hk
  · rw [pending]
    refine and_congr_right fun _ => ⟨?_, ?_⟩
    · rintro hp k t ht rfl
      exact hp (List.mem_map_of_mem (flying k t ht))
    · rintro hp hm
      obtain ⟨t, ht, heq⟩ := List.mem_map.mp hm
      exact hp t.chunk t (h.single.mem_inFlight.mp ht) heq

/-! ### Requests -/

/-- A request for a chunk in flight, whether its count is refused or not. -/
theorem serve_joined {chunk : ChunkId} {p : Pending}
    (h : l.cache.find? chunk = some (.inFlight p)) :
    ∃ sink refusal, l.serve chunk =
      ({ l with cache := { l.cache with used := true }.join chunk p, sink },
        Option.elim refusal (.ok (p.promise, none)) .error) := by
  have hf : { l.cache with used := true }.find? chunk = some (.inFlight p) := h
  obtain ⟨sink, refusal, hc⟩ := count_eq
    { l with cache := { l.cache with used := true }.join chunk p } requestsTotal ("result", "join")
  refine ⟨sink, refusal, ?_⟩
  cases refusal <;> simp only [serve, hf, hc, Option.elim]

/-- A request for a chunk with a final entry: only a count that is taken makes a promise. -/
theorem Bare.serve_known (hb : l.Bare policy hook) {chunk : ChunkId} {e : Entry}
    (h : l.cache.find? chunk = some e) (he : e.state ≠ .inFlight) :
    ∃ sink refusal, l.serve chunk =
      Option.elim refusal
        ({ l with
            cache := { l.cache with used := true }
            promises := l.promises.create.1.settle l.promises.create.2 .ok
            sink }, .ok (l.promises.create.2, none))
        fun f => ({ l with cache := { l.cache with used := true }, sink }, .error f) := by
  have hf : { l.cache with used := true }.find? chunk = some e := h
  obtain ⟨sink, refusal, hc⟩ := count_eq
    { l with cache := { l.cache with used := true } } requestsTotal ("result", "hit")
  have made : Bare policy hook
      ({ l with cache := { l.cache with used := true }, sink }.newPromise).1 :=
    { hb with single := hb.single }
  have kept := made.settlePromise_eq l.promises.create.2 .ok
  refine ⟨sink, refusal, ?_⟩
  cases e with
  | inFlight p => exact absurd rfl he
  | skipped =>
    cases refusal with
    | some f => simp only [serve, hf, hc, Option.elim]
    | none => simp only [serve, hf, hc, Option.elim]; exact Prod.ext kept rfl
  | loaded =>
    cases refusal with
    | some f => simp only [serve, hf, hc, Option.elim]
    | none => simp only [serve, hf, hc, Option.elim]; exact Prod.ext kept rfl

/-- A request for an unknown chunk makes its entry, and then the count may be refused. -/
theorem serve_begun {chunk : ChunkId} (h : l.cache.find? chunk = none) :
    ∃ sink refusal log, l.serve chunk =
      ({ l with
          cache := ({ l.cache with used := true }.begin chunk l.promises.create.2).1
          promises := l.promises.create.1
          sink
          log },
        Option.elim refusal (.ok (l.promises.create.2,
          some ⟨chunk, l.promises.create.2, l.cache.attemptsAt chunk + 1⟩)) .error) := by
  have hf : { l.cache with used := true }.find? chunk = none := h
  obtain ⟨sink, refusal, hc⟩ := count_eq
    { l with
      cache := ({ l.cache with used := true }.begin chunk l.promises.create.2).1
      promises := l.promises.create.1 } requestsTotal ("result", "start")
  simp only [Cache.begin] at hc
  cases refusal with
  | some f => exact ⟨sink, some f, l.log, by simp only [serve, hf, newPromise, Cache.begin, hc]; rfl⟩
  | none =>
    let t : Ticket := ⟨chunk, l.promises.create.2, l.cache.attemptsAt chunk + 1⟩
    refine ⟨sink, none, (l.noteStart t).log, ?_⟩
    simp only [serve, hf, newPromise, Cache.begin, hc]
    rfl

end Loader

namespace Run

/-- Nothing but the cache of a loader is used. -/
structure Solo (policy : Policy) (hook : Bool) (r : Run) : Prop where
  bare : r.loader.Bare policy hook
  plain : ∀ s ∈ r.suspended, s.Plain

/-- What is left in the queue after a move. -/
def readyAfter (r : Run) : Move → List Job
  | .invoke (.reportLater chunk e) =>
    if r.loader.cache.used then r.loader.ready ++ [.report chunk e] else r.loader.ready
  | .runJob => if r.idle then r.loader.ready.tail else r.loader.ready
  | _ => r.loader.ready

/-- A move keeps a cache by itself, and deals with its books. -/
structure Kept (policy : Policy) (hook : Bool) (r : Run) (m : Move) (r' : Run) : Prop where
  solo : Solo policy hook r'
  dealt : r.Dealt m r'.books
  ready : r'.loader.ready = r.readyAfter m

section Moves

variable {policy : Policy} {hook : Bool} {r r' : Run} {m : Move}

/-- What shows in no books changes none. -/
theorem Dealt.of_same (tickets : ∀ k, r'.loader.cache.ticketOf? k = r.loader.cache.ticketOf? k)
    (attempts : r'.loader.cache.attempts = r.loader.cache.attempts)
    (promises : r'.loader.promises = r.loader.promises)
    (handed : r'.loader.handed = r.loader.handed)
    (used : r.loader.cache.used = true → r'.loader.cache.used = true)
    (starting : r'.suspended.filterMap (·.call.ticket?) =
      r.suspended.filterMap (·.call.ticket?)) : r.Dealt m r'.books := by
  have numbers : r'.loader.cache.attemptsAt = r.loader.cache.attemptsAt :=
    funext fun k => by simp only [Cache.attemptsAt, attempts]
  have same : r'.books = { r.books with used := r'.loader.cache.used } := by
    simp only [books, funext tickets, numbers, promises, handed, starting]
  rw [same]
  exact .still used

/-- A move that leaves the books as they are. -/
theorem Kept.still (h : Solo policy hook r) (bare : r'.loader.Bare policy hook)
    (tickets : ∀ k, r'.loader.cache.ticketOf? k = r.loader.cache.ticketOf? k)
    (attempts : r'.loader.cache.attempts = r.loader.cache.attempts)
    (promises : r'.loader.promises = r.loader.promises)
    (handed : r'.loader.handed = r.loader.handed)
    (used : r.loader.cache.used = true → r'.loader.cache.used = true)
    (suspended : r'.suspended = r.suspended)
    (ready : r'.loader.ready = r.readyAfter m) : Kept policy hook r m r' where
  solo := ⟨bare, by rw [suspended]; exact h.plain⟩
  dealt := .of_same tickets attempts promises handed used (by rw [suspended])
  ready

/-- The cache serves every request: it was not shut down, and every chunk has something to fetch. -/
theorem request_eq_serve (h : Solo policy hook r) (chunk : ChunkId) :
    r.loader.request chunk = r.loader.serve chunk := by
  simp [Loader.request, h.bare.opened, h.bare.plan]

/-- A request for an unknown chunk starts an attempt. -/
theorem kept_request_of_unknown (h : Solo policy hook r) {chunk : ChunkId}
    (hf : r.loader.cache.find? chunk = none) :
    Kept policy hook r (.invoke (.request chunk)) (r.step (.invoke (.request chunk))) := by
  have hreq := request_eq_serve h chunk
  obtain ⟨sink, refusal, log, hserve⟩ := Loader.serve_begun hf
  let t : Ticket := ⟨chunk, r.loader.promises.create.2, r.loader.cache.attemptsAt chunk + 1⟩
  let l : Loader :=
    { r.loader with
      cache := ({ r.loader.cache with used := true }.begin chunk r.loader.promises.create.2).1
      promises := r.loader.promises.create.1
      sink
      log }
  have bare : l.Bare policy hook := { h.bare with single := h.bare.single.begin chunk _ }
  have dealt : ∀ {started : List Ticket}, started = [t] ∨ started = [] →
      r.Dealt (.invoke (.request chunk))
        { ticket := l.cache.ticketOf?
          attempts := l.cache.attemptsAt
          promises := l.promises
          handed := l.handed
          starting := started ++ r.books.starting
          used := true } := by
    intro started hs
    have tickets : l.cache.ticketOf? = Function.update r.books.ticket chunk (some t) :=
      funext fun k => by
        rw [Function.update_apply]
        exact Cache.ticketOf?_begin { r.loader.cache with used := true } chunk k _
    have numbers : l.cache.attemptsAt = Function.update r.books.attempts chunk t.attempt :=
      funext fun k => by
        rw [Function.update_apply]
        exact Cache.attemptsAt_begin { r.loader.cache with used := true } chunk k _
    rw [tickets, numbers]
    exact .begun (by simp [books, Cache.ticketOf?, hf]) rfl hs
  cases refusal with
  | some f =>
    have hstep : r.step (.invoke (.request chunk)) = { r with loader := l } := by
      simp [step, Loader.invoke, hreq, hserve, l]
    rw [hstep]
    exact ⟨⟨bare, h.plain⟩, dealt (.inr rfl), rfl⟩
  | none =>
    have hstep : r.step (.invoke (.request chunk)) =
        r.after (some (.promise t.promise))
          (l, .calling (.start t) [.started t, .hand chunk t.promise]) := by
      simp [step, Loader.invoke, hreq, hserve, Loader.drive, Loader.perform, Loader.start,
        h.bare.plan, l, t]
    rw [hstep]
    refine ⟨⟨bare, fun s hs => ?_⟩, dealt (.inl rfl), rfl⟩
    rcases List.mem_cons.mp hs with rfl | hs
    · exact .inl ⟨t, rfl, rfl⟩
    · exact h.plain s hs

/-- A request for a chunk in flight is answered with the promise of the attempt. -/
theorem kept_request_of_inFlight (h : Solo policy hook r) {chunk : ChunkId} {p : Pending}
    (hf : r.loader.cache.find? chunk = some (.inFlight p)) :
    Kept policy hook r (.invoke (.request chunk)) (r.step (.invoke (.request chunk))) := by
  have hreq := request_eq_serve h chunk
  obtain ⟨sink, refusal, hserve⟩ := Loader.serve_joined hf
  let l : Loader :=
    { r.loader with cache := { r.loader.cache with used := true }.join chunk p, sink }
  have bare : l.Bare policy hook := { h.bare with single := h.bare.single.join chunk p }
  have tickets : ∀ k, l.cache.ticketOf? k = r.loader.cache.ticketOf? k := fun k =>
    Cache.ticketOf?_join { r.loader.cache with used := true } chunk k hf
  cases refusal with
  | some f =>
    have hstep : r.step (.invoke (.request chunk)) = { r with loader := l } := by
      simp [step, Loader.invoke, hreq, hserve, l]
    rw [hstep]
    exact .still h bare tickets rfl rfl rfl (fun _ => rfl) rfl rfl
  | none =>
    have hstep : r.step (.invoke (.request chunk)) =
        r.after (some (.promise p.promise)) (l.hand chunk p.promise, .finished) := by
      simp [step, Loader.invoke, hreq, hserve, Loader.atOnce, Loader.drive, l]
    have hbooks : (r.after (some (.promise p.promise))
        (l.hand chunk p.promise, .finished)).books =
        { r.books with handed := r.books.handed ++ [(chunk, p.promise)], used := true } := by
      have same : l.cache.ticketOf? = r.loader.cache.ticketOf? := funext tickets
      simp only [books, after, Loader.hand, same]
      rfl
    rw [hstep]
    refine ⟨⟨{ bare with }, h.plain⟩, ?_, rfl⟩
    rw [hbooks]
    exact .joined ⟨_, Cache.ticketOf?_eq_some.mpr ⟨p, hf, rfl⟩, rfl⟩

/-- A request for a chunk with a final entry is answered with a kept promise. -/
theorem kept_request_of_final (h : Solo policy hook r) {chunk : ChunkId} {e : Entry}
    (hf : r.loader.cache.find? chunk = some e) (he : e.state ≠ .inFlight) :
    Kept policy hook r (.invoke (.request chunk)) (r.step (.invoke (.request chunk))) := by
  have hreq := request_eq_serve h chunk
  obtain ⟨sink, refusal, hserve⟩ := h.bare.serve_known hf he
  cases refusal with
  | some f =>
    have hstep : r.step (.invoke (.request chunk)) =
        { r with loader :=
          { r.loader with cache := { r.loader.cache with used := true }, sink } } := by
      simp [step, Loader.invoke, hreq, hserve]
    rw [hstep]
    exact .still h { h.bare with single := h.bare.single } (fun _ => rfl) rfl rfl rfl
      (fun _ => rfl) rfl rfl
  | none =>
    have hstep : r.step (.invoke (.request chunk)) =
        r.after (some (.promise r.loader.promises.create.2))
          ({ r.loader with
              cache := { r.loader.cache with used := true }
              promises := r.loader.promises.create.1.settle r.loader.promises.create.2 .ok
              sink }.hand chunk r.loader.promises.create.2, .finished) := by
      simp [step, Loader.invoke, hreq, hserve, Loader.atOnce, Loader.drive]
    rw [hstep]
    exact ⟨⟨{ h.bare with single := h.bare.single }, h.plain⟩, .kept chunk, rfl⟩

theorem kept_request (h : Solo policy hook r) (chunk : ChunkId) :
    Kept policy hook r (.invoke (.request chunk)) (r.step (.invoke (.request chunk))) := by
  cases hf : r.loader.cache.find? chunk with
  | none => exact kept_request_of_unknown h hf
  | some e =>
    by_cases he : e.state = .inFlight
    · cases e with
      | skipped => cases he
      | loaded => cases he
      | inFlight p => exact kept_request_of_inFlight h hf
    · exact kept_request_of_final h hf he

/-- An attempt in flight ends by a signal. -/
theorem Kept.settled (h : Solo policy hook r) {l : Loader} (bare : l.Bare policy hook)
    (cache : l.cache = r.loader.cache) (promises : l.promises = r.loader.promises)
    (handed : l.handed = r.loader.handed) {t : Ticket} (ht : r.loader.cache.honours t = true)
    (e : LoadEvent) (hr : r'.loader = l.settleEntry t e)
    (plain : ∀ s ∈ r'.suspended, s ∈ r.suspended)
    (starting : r'.books.starting = r.books.starting) (ready : l.ready = r.readyAfter m) :
    Kept policy hook r m r' := by
  obtain ⟨log, hset⟩ := bare.settleEntry_eq t e
  have hbooks : r'.books =
      { r.books with
        ticket := Function.update r.books.ticket t.chunk none
        promises := r.books.promises.settle t.promise (l.outcomeOf t.chunk e) } := by
    have tickets : r'.loader.cache.ticketOf? =
        Function.update r.loader.cache.ticketOf? t.chunk none := funext fun k => by
      rw [hr, hset, cache, Function.update_apply]
      exact Cache.ticketOf?_ended ..
    have numbers : r'.loader.cache.attemptsAt = r.loader.cache.attemptsAt := funext fun k => by
      rw [hr, hset, cache]
      cases e.isLoad <;> rfl
    have promises' : r'.loader.promises =
        r.loader.promises.settle t.promise (l.outcomeOf t.chunk e) := by
      rw [hr, hset, promises]
    have handed' : r'.loader.handed = r.loader.handed := by
      rw [hr, hset, handed]
    have used : r'.loader.cache.used = r.loader.cache.used := by
      rw [hr, hset, cache]
      cases e.isLoad <;> rfl
    simp only [books] at starting ⊢
    simp only [tickets, numbers, promises', handed', starting, used]
  obtain ⟨p, hp, hprom⟩ := Cache.honours_iff.mp ht
  have backed : r.books.Backed t.chunk t.promise :=
    ⟨_, Cache.ticketOf?_eq_some.mpr ⟨p, hp, rfl⟩, hprom⟩
  refine ⟨⟨?_, fun s hs => h.plain s (plain s hs)⟩, by rw [hbooks]; exact .ended backed _, ?_⟩
  · rw [hr, hset]
    exact { bare with single := bare.single.ended t.chunk e.isLoad }
  · rw [hr, hset]
    exact ready

/-- A report ends the attempt in flight, unless the hook is to see it first. -/
theorem Kept.reported (h : Solo policy hook r) {l : Loader} (bare : l.Bare policy hook)
    (cache : l.cache = r.loader.cache) (promises : l.promises = r.loader.promises)
    (handed : l.handed = r.loader.handed) (chunk : ChunkId) (e : LoadEvent)
    (answer : Option Answer) (ready : l.ready = r.readyAfter m) :
    Kept policy hook r m
      (r.after answer ((l.report chunk e).1.drive (l.report chunk e).2)) := by
  cases htick : r.loader.cache.ticketOf? chunk with
  | none =>
    have hrep : l.report chunk e = (l.noteIdle chunk e, []) := by
      simp [Loader.report, cache, htick]
    rw [hrep]
    have tickets : l.cache.ticketOf? = r.loader.cache.ticketOf? := by rw [cache]
    have used : r.loader.cache.used = true → l.cache.used = true := by rw [cache]; exact id
    exact .still h { bare with } (congrFun tickets) (congrArg Cache.attempts cache) promises handed
      used rfl ready
  | some t =>
    have hchunk := Cache.chunk_of_ticketOf? htick
    have hrep : l.report chunk e = (l, [.consult chunk e, .settle t e]) := by
      simp [Loader.report, cache, htick]
    subst hchunk
    cases hook with
    | true =>
      have hd : l.drive [.consult t.chunk e, .settle t e] =
          (l, .calling (.consult t.chunk e) [.settle t e]) := by
        simp [Loader.drive, Loader.perform, Loader.consult, bare.plan]
      rw [hrep, hd]
      have tickets : l.cache.ticketOf? = r.loader.cache.ticketOf? := by rw [cache]
      have used : r.loader.cache.used = true → l.cache.used = true := by rw [cache]; exact id
      refine ⟨⟨bare, fun s hs => ?_⟩, .of_same (congrFun tickets) (congrArg Cache.attempts cache)
        promises handed used (by simp [after, Call.ticket?]), ready⟩
      rcases List.mem_cons.mp hs with rfl | hs
      · exact .inr ⟨t, e, rfl, rfl⟩
      · exact h.plain s hs
    | false =>
      have hon := Cache.honours_of_ticketOf? htick
      have hd : l.drive [.consult t.chunk e, .settle t e] = (l.settleEntry t e, .finished) := by
        simp [Loader.drive, Loader.perform, Loader.consult, bare.plan, cache, hon]
      rw [hrep, hd]
      exact .settled h bare cache promises handed hon e rfl (fun _ hs => hs) rfl ready

theorem kept_redeem (h : Solo policy hook r) (t : Ticket) (e : LoadEvent) :
    Kept policy hook r (.invoke (.redeem t e)) (r.step (.invoke (.redeem t e))) := by
  have hstep : r.step (.invoke (.redeem t e)) =
      r.after (some .nothing) (r.loader.redeem t e, .finished) := rfl
  rw [hstep]
  cases hon : r.loader.cache.honours t with
  | true =>
    rw [Loader.redeem_of_honours hon]
    exact .settled h h.bare rfl rfl rfl hon e rfl (fun _ hs => hs) rfl rfl
  | false =>
    obtain ⟨log, hl⟩ := Loader.redeem_of_not_honours hon e
    rw [hl]
    exact .still h { h.bare with } (fun _ => rfl) rfl rfl rfl id rfl rfl

theorem kept_mark (h : Solo policy hook r) (chunk : ChunkId) {e : Entry}
    (he : e.state ≠ .inFlight) :
    Kept policy hook r (.invoke (.mark chunk e)) (r.step (.invoke (.mark chunk e))) := by
  have attempts : (r.loader.cache.mark chunk e).attempts = r.loader.cache.attempts := by
    unfold Cache.mark
    split <;> rfl
  have used : r.loader.cache.used = true → (r.loader.cache.mark chunk e).used = true := by
    unfold Cache.mark
    split <;> exact id
  exact .still h { h.bare with single := h.bare.single.mark chunk e }
    (fun k => Cache.ticketOf?_mark _ chunk k he) attempts rfl rfl used rfl rfl

theorem kept_reportLater (h : Solo policy hook r) (chunk : ChunkId) (e : LoadEvent) :
    Kept policy hook r (.invoke (.reportLater chunk e))
      (r.step (.invoke (.reportLater chunk e))) := by
  cases hu : r.loader.cache.used with
  | true =>
    have hstep : r.step (.invoke (.reportLater chunk e)) =
        r.after (some .nothing) (r.loader.queue (.report chunk e), .finished) := by
      simp [step, Loader.invoke, hu, Loader.atOnce, Loader.drive]
    rw [hstep]
    exact .still h { h.bare with } (fun _ => rfl) rfl rfl rfl id rfl
      (by simp [readyAfter, hu, after, Loader.queue])
  | false =>
    have hstep : r.step (.invoke (.reportLater chunk e)) = r := by
      simp [step, Loader.invoke, hu]
    rw [hstep]
    exact .still h h.bare (fun _ => rfl) rfl rfl rfl id rfl (by simp [readyAfter, hu])

theorem kept_closeCache (h : Solo policy hook r) :
    Kept policy hook r (.invoke .closeCache) (r.step (.invoke .closeCache)) := by
  obtain ⟨cache, promises, hclose, single, tickets, attempts, used, size, pending⟩ :=
    h.bare.closeCache_eq
  have hstep : r.step (.invoke .closeCache) =
      r.after (some .nothing) ({ r.loader with cache, promises }, .finished) := by
    rw [← hclose]
    rfl
  have hbooks : (r.after (some .nothing) ({ r.loader with cache, promises }, .finished)).books =
      { r.books with ticket := fun _ => none, promises } := by
    have none : cache.ticketOf? = fun _ => none := funext tickets
    have numbers : cache.attemptsAt = r.loader.cache.attemptsAt :=
      funext fun k => by simp only [Cache.attemptsAt, attempts]
    simp only [books, after, none, numbers, used]
  rw [hstep]
  refine ⟨⟨{ h.bare with single }, h.plain⟩, ?_, rfl⟩
  rw [hbooks]
  refine .closed size fun p => (pending p).trans (and_congr_right fun _ => ?_)
  constructor
  · rintro hp k ⟨t, ht, heq⟩
    exact hp k t ht heq
  · intro hp k t ht heq
    exact hp k ⟨t, ht, heq⟩

theorem kept_cancelPromise (h : Solo policy hook r) (p : PromiseId) :
    Kept policy hook r (.invoke (.cancelPromise p)) (r.step (.invoke (.cancelPromise p))) := by
  have hstep : r.step (.invoke (.cancelPromise p)) =
      r.after (some (.flag (r.loader.promises.isPending p)))
        ({ r.loader with promises := r.loader.promises.settle p .cancelled }, .finished) := by
    rw [← h.bare.settlePromise_eq]
    rfl
  rw [hstep]
  exact ⟨⟨{ h.bare with }, h.plain⟩, .cancelled rfl, rfl⟩

theorem kept_returns (h : Solo policy hook r) :
    Kept policy hook r .returns (r.step .returns) := by
  cases hs : r.suspended with
  | nil =>
    have hstep : r.step .returns = r := by simp [step, hs]
    rw [hstep]
    exact .still h h.bare (fun _ => rfl) rfl rfl rfl id rfl rfl
  | cons s outer =>
    obtain ⟨call, rest, answer⟩ := s
    have inner : ∀ s ∈ outer, s ∈ r.suspended := by
      rw [hs]
      exact fun s h => List.mem_cons_of_mem _ h
    rcases h.plain ⟨call, rest, answer⟩ (by rw [hs]; exact List.mem_cons_self ..) with
      ⟨t, rfl, rfl⟩ | ⟨t, e, rfl, rfl⟩
    · have hstep : r.step .returns = { r with suspended := outer }.after answer
          (r.loader.hand t.chunk t.promise, .finished) := by
        simp [step, hs, Loader.drive, Loader.perform]
      rw [hstep]
      refine ⟨⟨{ h.bare with }, fun s hs' => h.plain s (inner s hs')⟩, ?_, rfl⟩
      exact .returned (t := t) (by simp [books, after, hs, Call.ticket?]) (.inl rfl)
    · have same : outer.filterMap (·.call.ticket?) = r.suspended.filterMap (·.call.ticket?) := by
        simp [hs, Call.ticket?]
      cases hon : r.loader.cache.honours t with
      | true =>
        have hstep : r.step .returns =
            { r with suspended := outer }.after answer (r.loader.settleEntry t e, .finished) := by
          simp [step, hs, Loader.drive, Loader.perform, hon]
        rw [hstep]
        exact .settled h h.bare rfl rfl rfl hon e rfl inner (by simp [books, after, same]) rfl
      | false =>
        have hstep : r.step .returns =
            { r with suspended := outer }.after answer (r.loader, .finished) := by
          simp [step, hs, Loader.drive, Loader.perform, hon]
        rw [hstep]
        exact ⟨⟨h.bare, fun s hs' => h.plain s (inner s hs')⟩,
          .of_same (fun _ => rfl) rfl rfl rfl id same, rfl⟩

/-- The books after the starter of an attempt in flight has raised. -/
theorem books_forsaken (h : Solo policy hook r) {t : Ticket} (hf : r.Forsakes t m) :
    Solo policy hook (r.step m) ∧ (r.step m).loader.ready = r.loader.ready ∧
      ∃ rest, r.books.starting = t :: rest ∧
        (r.step m).books =
          { r.books with
            ticket := Function.update r.books.ticket t.chunk none
            starting := rest } := by
  obtain ⟨f, ⟨call, rest, answer⟩, outer, rfl, hs, rfl, t', ht', hprom⟩ := id hf
  have inner : ∀ s ∈ outer, s ∈ r.suspended := by
    rw [hs]
    exact fun s h => List.mem_cons_of_mem _ h
  obtain ⟨p, hp, rfl⟩ := Cache.ticketOf?_eq_some.mp ht'
  have hon : r.loader.cache.honours t = true := Cache.honours_iff.mpr ⟨p, hp, hprom⟩
  have hrest : rest = [.started t, .hand t.chunk t.promise] := by
    rcases h.plain _ (by rw [hs]; exact List.mem_cons_self ..) with
      ⟨t', hcall, hrest⟩ | ⟨t', e, hcall, -⟩
    · cases hcall
      exact hrest
    · cases hcall
  have hstep : r.step (.raises f) =
      { r with suspended := outer }.after answer
        ({ r.loader with cache := r.loader.cache.drop t.chunk }, .raised f) := by
    simp [step, hs, hrest, Loader.unwind, Loader.abandon, hon]
  have tickets : (r.loader.cache.drop t.chunk).ticketOf? =
      Function.update r.loader.cache.ticketOf? t.chunk none := funext fun k => by
    rw [Function.update_apply]
    exact Cache.ticketOf?_drop ..
  rw [hstep]
  refine ⟨⟨{ h.bare with single := h.bare.single.drop t.chunk },
    fun s hs' => h.plain s (inner s hs')⟩, rfl, outer.filterMap (·.call.ticket?), ?_, ?_⟩
  · simp [books, hs, Call.ticket?]
  · simp only [after, books, tickets]
    rfl

theorem kept_raises (h : Solo policy hook r) (f : Fault) :
    Kept policy hook r (.raises f) (r.step (.raises f)) := by
  cases hs : r.suspended with
  | nil =>
    have hstep : r.step (.raises f) = r := by simp [step, hs]
    rw [hstep]
    exact .still h h.bare (fun _ => rfl) rfl rfl rfl id rfl rfl
  | cons s outer =>
    obtain ⟨call, rest, answer⟩ := s
    have inner : ∀ s ∈ outer, s ∈ r.suspended := by
      rw [hs]
      exact fun s h => List.mem_cons_of_mem _ h
    rcases h.plain ⟨call, rest, answer⟩ (by rw [hs]; exact List.mem_cons_self ..) with
      ⟨t, rfl, rfl⟩ | ⟨t, e, rfl, rfl⟩
    · cases hon : r.loader.cache.honours t with
      | true =>
        obtain ⟨p, hp, hprom⟩ := Cache.honours_iff.mp hon
        have hf : r.Forsakes t (.raises f) :=
          ⟨f, _, outer, rfl, hs, rfl, _, Cache.ticketOf?_eq_some.mpr ⟨p, hp, rfl⟩, hprom⟩
        obtain ⟨solo, ready, rest, hstart, hbooks⟩ := books_forsaken h hf
        refine ⟨solo, ?_, ready⟩
        rw [hbooks]
        exact .forsaken hf hstart
      | false =>
        have hstep : r.step (.raises f) =
            { r with suspended := outer }.after answer (r.loader, .raised f) := by
          simp [step, hs, Loader.unwind, Loader.abandon, hon]
        rw [hstep]
        refine ⟨⟨h.bare, fun s hs' => h.plain s (inner s hs')⟩, ?_, rfl⟩
        have hstart : r.books.starting = t :: outer.filterMap (·.call.ticket?) := by
          simp [books, hs, Call.ticket?]
        have hd := Dealt.returned (m := .raises f) hstart (.inr rfl)
        rw [List.append_nil] at hd
        exact hd
    · have hstep : r.step (.raises f) =
          { r with suspended := outer }.after answer (r.loader, .raised f) := by
        simp [step, hs, Loader.unwind]
      rw [hstep]
      have same : outer.filterMap (·.call.ticket?) = r.suspended.filterMap (·.call.ticket?) := by
        simp [hs, Call.ticket?]
      exact ⟨⟨h.bare, fun s hs' => h.plain s (inner s hs')⟩,
        .of_same (fun _ => rfl) rfl rfl rfl id same, rfl⟩

/-- Without tasks, fetches and shutdowns, only reports on the queue do anything. -/
theorem kept_runJob (h : Solo policy hook r) : Kept policy hook r .runJob (r.step .runJob) := by
  cases hi : r.idle with
  | false =>
    have hstep : r.step .runJob = r := by simp [step, hi]
    rw [hstep]
    exact .still h h.bare (fun _ => rfl) rfl rfl rfl id rfl (by simp [readyAfter, hi])
  | true =>
    cases hq : r.loader.ready with
    | nil =>
      have hstep : r.step .runJob = r := by simp [step, hi, Loader.nextJob?, hq]
      rw [hstep]
      exact .still h h.bare (fun _ => rfl) rfl rfl rfl id rfl (by simp [readyAfter, hi, hq])
    | cons job rest =>
      have bare : Loader.Bare policy hook { r.loader with ready := rest } := { h.bare with }
      have ready : rest = r.readyAfter .runJob := by simp [readyAfter, hi, hq]
      have hstep : r.step .runJob =
          r.after none (({ r.loader with ready := rest }.runJob job).1.drive
            ({ r.loader with ready := rest }.runJob job).2) := by
        simp [step, hi, Loader.nextJob?, hq]
      have idle : ∀ work : Loader × List Frame, work = ({ r.loader with ready := rest }, []) →
          Kept policy hook r .runJob (r.after none (work.1.drive work.2)) := by
        rintro _ rfl
        exact .still h bare (fun _ => rfl) rfl rfl rfl id rfl ready
      rw [hstep]
      cases job with
      | report chunk e => exact .reported h bare rfl rfl rfl chunk e none ready
      | startTask t =>
        exact idle _ (by simp [Loader.runJob, Loader.startTask, h.bare.tasks, Table.get?])
      | childSettled t p =>
        exact idle _ (by simp [Loader.runJob, Loader.childSettled, h.bare.tasks, Table.get?])
      | wakeTask t =>
        exact idle _ (by simp [Loader.runJob, Loader.wakeTask, h.bare.tasks, Table.get?])
      | ask f => exact idle _ (by simp [Loader.runJob, Loader.ask, h.bare.fetches, Table.get?])
      | answer f =>
        exact idle _ (by simp [Loader.runJob, Loader.takeAnswer, h.bare.fetches, Table.get?])
      | forget f => exact idle _ rfl
      | fetchEnded c f =>
        exact idle _ (by simp [Loader.runJob, Loader.fetchEnded, h.bare.closings, Table.get?])
      | wakeClosing c =>
        exact idle _ (by simp [Loader.runJob, Loader.wakeClosing, h.bare.closings, Table.get?])

/-- Each move keeps a cache by itself, and deals with its books. -/
theorem Solo.kept (h : Solo policy hook r) (hm : r.CacheMove m) :
    Kept policy hook r m (r.step m) := by
  cases m with
  | invoke op =>
    cases op with
    | request chunk => exact kept_request h chunk
    | mark chunk e => exact kept_mark h chunk hm
    | report chunk e => exact .reported h h.bare rfl rfl rfl chunk e (some .nothing) rfl
    | reportLater chunk e => exact kept_reportLater h chunk e
    | redeem t e => exact kept_redeem h t e
    | closeCache => exact kept_closeCache h
    | cancelPromise p => exact kept_cancelPromise h p
    | _ => exact hm.elim
  | returns => exact kept_returns h
  | raises f => exact kept_raises h f
  | runJob => exact kept_runJob h
  | setClock now =>
    simp only [step]
    split
    · exact .still h { h.bare with } (fun _ => rfl) rfl rfl rfl id rfl rfl
    · exact .still h h.bare (fun _ => rfl) rfl rfl rfl id rfl rfl
  | _ => exact hm.elim

end Moves

/-! ## §3 Histories -/

/-- A cache by itself, with sound books. -/
structure Audited (policy : Policy) (hook : Bool) (r : Run) : Prop where
  solo : Solo policy hook r
  sound : r.books.Sound

namespace Audited

variable {policy : Policy} {hook : Bool} {r : Run} {m : Move} {ms : List Move}

theorem dealt (h : Audited policy hook r) (hm : r.CacheMove m) : r.Dealt m (r.step m).books :=
  (h.solo.kept hm).dealt

theorem step (h : Audited policy hook r) (hm : r.CacheMove m) : Audited policy hook (r.step m) :=
  ⟨(h.solo.kept hm).solo, (h.dealt hm).sound h.sound⟩

theorem steps (h : Audited policy hook r) (hm : r.Admits CacheMove ms) :
    Audited policy hook (r.steps ms) :=
  hm.keeps (fun _ _ h hm => h.step hm) h

/-- A cache as it is opened has promised nothing. -/
theorem opened (policy : Policy) (hook : Bool) {installed : List (ChunkId × String)}
    {cache : Cache} (hc : Cache.seed installed = .ok cache) (sink : Metrics.Sink) :
    Audited policy hook { loader := .ofCache policy hook cache sink } := by
  obtain ⟨single, tickets, -⟩ := Cache.seed_spec hc
  have none : ∀ k t, cache.ticketOf? k ≠ some t := by simp [tickets]
  refine ⟨⟨⟨rfl, rfl, rfl, rfl, rfl, single⟩, fun s h => nomatch h⟩, ?_⟩
  exact
    { latest := fun k t ht => absurd ht (none k t)
      made := fun k t ht => absurd ht (none k t)
      distinct := fun k k' p hb => absurd hb.choose_spec.1 (none k _)
      bounded := fun chunk p hm => nomatch hm
      started := fun t ht => nomatch ht
      apart := List.nodup_nil
      awaited := fun t ht => nomatch ht
      used := fun k t ht => absurd ht (none k t) }

end Audited

end Run

end SingleFlight
