/-
SingleFlight.Proofs.Strands — promises that nobody will settle.

A starter may ask for the very chunk that it is to fetch. That request is answered
at once, with the promise of the attempt that is being started; if the starter
then raises, the entry is dropped and the promise is left to whoever holds it.
Nothing that the cache does afterwards settles it.

* `Run.Stranded` — a promise that was left behind in this way.
* `Run.Pledged` — what a history comes to: a promise that is still pending is
  backed by its chunk's attempt in flight, unless it was left behind; as long as
  it is backed, a report, its ticket or the end of the cache settles it; once it
  was left behind, only a cancellation does.
* `Run.pledges_kept` proves it, and `Run.pending_after_close` is a run in which a
  promise outlives the cache.
-/
import Mathlib.Data.List.Induction
import SingleFlight.Proofs.Pledges

namespace SingleFlight

namespace Run

/--
A promise was handed out for a chunk, and then the starter of its attempt raised while the attempt
was in flight.
-/
def Stranded (start : Run) (ms : List Move) (chunk : ChunkId) (p : PromiseId) : Prop :=
  ∃ pre m post t, ms = pre ++ m :: post ∧ (start.steps pre).Forsakes t m ∧ t.chunk = chunk ∧
    t.promise = p ∧ (chunk, p) ∈ (start.steps pre).books.handed

/-- What becomes of the promises that a history of a cache by itself hands out. -/
structure Pledged (hook : Bool) (start : Run) (ms : List Move) : Prop where
  backed : ∀ chunk p, (chunk, p) ∈ (start.steps ms).loader.handed →
    (start.steps ms).loader.promises.isPending p = true →
    ((start.steps ms).books.Backed chunk p ↔ ¬ start.Stranded ms chunk p)
  closing : ∀ chunk p, (start.steps ms).books.Backed chunk p →
    ((start.steps ms).step (.invoke .closeCache)).loader.promises.isPending p = false
  /-- A hook that sees the report first has to return. -/
  reporting : ∀ chunk p e, (start.steps ms).books.Backed chunk p →
    ((start.steps ms).steps (.invoke (.report chunk e) :: if hook then [.returns] else
      [])).loader.promises.isPending p = false
  redeeming : ∀ t e, (start.steps ms).books.Backed t.chunk t.promise →
    ((start.steps ms).step (.invoke (.redeem t e))).loader.promises.isPending t.promise = false
  /-- A promise that was left behind is settled by a cancellation and nothing else. -/
  stranded : ∀ pre m post t, ms = pre ++ m :: post → (start.steps pre).Forsakes t m →
    (start.steps pre).loader.promises.isPending t.promise = true →
    (∀ x ∈ post, x ≠ .invoke (.cancelPromise t.promise)) →
    (start.steps ms).loader.promises.isPending t.promise = true

namespace Audited

variable {policy : Policy} {hook : Bool} {r : Run} {m : Move} {ms : List Move} {t : Ticket}
  {chunk : ChunkId} {p : PromiseId}

/-- The attempt of a starter that has raised settles no promise any more. -/
theorem not_backed (h : Audited policy hook r) (hf : r.Forsakes t m) (k : ChunkId) :
    ¬ (r.step m).books.Backed k t.promise := by
  obtain ⟨-, -, rest, -, hbooks⟩ := books_forsaken h.solo hf
  rw [hbooks]
  rintro ⟨t', ht', hprom⟩
  obtain ⟨-, -, -, -, -, -, hb⟩ := hf
  change Function.update r.books.ticket t.chunk none k = some t' at ht'
  rw [Function.update_apply] at ht'
  split at ht'
  · cases ht'
  · rename_i hk
    exact hk (h.sound.distinct k t.chunk t.promise ⟨t', ht', hprom⟩ hb)

/-- A promise that is backed by no attempt stays so. -/
theorem not_backed_steps (h : Audited policy hook r) (hm : r.Admits CacheMove ms)
    (hp : p < r.loader.promises.table.size) (hn : ∀ k, ¬ r.books.Backed k p) (k : ChunkId) :
    ¬ (r.steps ms).books.Backed k p := by
  have kept := hm.keeps (I := fun s => Audited policy hook s ∧
    p < s.loader.promises.table.size ∧ ∀ k, ¬ s.books.Backed k p)
    (fun s x ⟨hs, hlt, hn⟩ hx => ⟨hs.step hx, Nat.lt_of_lt_of_le hlt (hs.dealt hx).grown.1,
      fun k hb => hn k ((hs.dealt hx).backed_of_backed hlt hb)⟩) ⟨h, hp, hn⟩
  exact kept.2.2 k

/-- A promise that is backed by no attempt stays pending until it is cancelled. -/
theorem pending_steps : ∀ {ms : List Move} {r : Run}, Audited policy hook r →
    r.Admits CacheMove ms → (∀ k, ¬ r.books.Backed k p) →
    (∀ x ∈ ms, x ≠ .invoke (.cancelPromise p)) → r.loader.promises.isPending p = true →
    (r.steps ms).loader.promises.isPending p = true
  | [], _, _, _, _, _, hp => hp
  | m :: ms, r, h, hm, hn, hc, hp => by
    have dealt := h.dealt hm.1
    rw [steps_cons]
    refine pending_steps (h.step hm.1) hm.2 (fun k hb => hn k ?_)
      (fun x hx => hc x (List.mem_cons_of_mem _ hx))
      (dealt.pending_of_unbacked hn (hc m (List.mem_cons_self ..)) hp)
    exact dealt.backed_of_backed (Promises.isPending_iff.mp hp).1 hb

/-- A starter that raises while its attempt is in flight leaves the promise without one. -/
theorem not_backed_of_forsakes (h : Audited policy hook r) {pre post : List Move}
    (hm : r.Admits CacheMove (pre ++ m :: post)) (hf : (r.steps pre).Forsakes t m) (k : ChunkId) :
    ¬ (r.steps (pre ++ m :: post)).books.Backed k t.promise := by
  have hpre := admits_append.mp hm
  have before := h.steps hpre.1
  obtain ⟨-, -, -, -, -, -, hb⟩ := id hf
  rw [steps_append, steps_cons]
  refine (before.step hpre.2.1).not_backed_steps hpre.2.2 ?_ (before.not_backed hf) k
  exact Nat.lt_of_lt_of_le (hb.lt before.sound) (before.dealt hpre.2.1).grown.1

/-- A promise that is pending is backed, or was left behind. -/
theorem backed_or_stranded (h : Audited policy hook r) (hfresh : r.books.handed = [])
    (hm : r.Admits CacheMove ms) (hh : (chunk, p) ∈ (r.steps ms).books.handed)
    (hp : (r.steps ms).loader.promises.isPending p = true) :
    (r.steps ms).books.Backed chunk p ∨ r.Stranded ms chunk p := by
  -- The last move hands the promise out, or finds it handed out, backed or left behind before.
  induction ms using List.reverseRecOn with
  | nil => exact absurd hh (by simp [Run.steps, hfresh])
  | append_singleton ms m ih =>
    obtain ⟨hms, hm', -⟩ := admits_append.mp hm
    rw [steps_concat] at hh hp ⊢
    have now := h.steps hms
    have dealt := now.dealt hm'
    rcases dealt.answered now.sound hh hp with hold | hb
    · have hlt := now.sound.bounded chunk p hold
      rcases ih hms hold (dealt.grown.2 p hlt hp) with hb | ⟨pre, x, post, t, rfl, hf, hk, hprom, hin⟩
      · rcases dealt.backed hb hp with hb | ⟨t, hf, hk, hprom, -⟩
        · exact .inl hb
        · exact .inr ⟨ms, m, [], t, rfl, hf, hk, hprom, hold⟩
      · exact .inr ⟨pre, x, post ++ [m], t, by simp, hf, hk, hprom, hin⟩
    · exact .inl hb

/-- The end of the cache settles every promise that is backed. -/
theorem closing (h : Audited policy hook r) (hb : r.books.Backed chunk p) :
    (r.step (.invoke .closeCache)).loader.promises.isPending p = false := by
  obtain ⟨cache, promises, hclose, -, -, -, -, -, pending⟩ := h.solo.bare.closeCache_eq
  have hl : (r.step (.invoke .closeCache)).loader = { r.loader with cache, promises } := hclose
  obtain ⟨t, ht, hprom⟩ := hb
  rw [hl, ← Bool.not_eq_true]
  intro hp
  exact ((pending p).mp hp).2 chunk t ht hprom

theorem not_pending_settleEntry (l : Loader) (t : Ticket) (e : LoadEvent) :
    (l.settleEntry t e).promises.isPending t.promise = false := by
  obtain ⟨ready, log, hset⟩ := l.settleEntry_eq t e
  rw [hset, Promises.isPending_settle]
  simp

theorem honours_of_backed (hb : r.books.Backed t.chunk t.promise) :
    r.loader.cache.honours t = true := by
  obtain ⟨t', ht', hprom⟩ := hb
  obtain ⟨x, hx, rfl⟩ := Cache.ticketOf?_eq_some.mp ht'
  exact Cache.honours_iff.mpr ⟨x, hx, hprom⟩

theorem redeeming (hb : r.books.Backed t.chunk t.promise) (e : LoadEvent) :
    (r.step (.invoke (.redeem t e))).loader.promises.isPending t.promise = false := by
  have hl : (r.step (.invoke (.redeem t e))).loader = r.loader.redeem t e := rfl
  rw [hl, Loader.redeem_of_honours (honours_of_backed hb)]
  exact not_pending_settleEntry ..

theorem reporting (h : Audited policy hook r) (hb : r.books.Backed chunk p) (e : LoadEvent) :
    (r.steps (.invoke (.report chunk e) :: if hook then [.returns] else
      [])).loader.promises.isPending p = false := by
  obtain ⟨t, ht, rfl⟩ := hb
  obtain ⟨rfl, -⟩ := h.sound.latest chunk t ht
  have hon : r.loader.cache.honours t = true := honours_of_backed ⟨t, ht, rfl⟩
  have hrep : r.loader.report t.chunk e = (r.loader, [.consult t.chunk e, .settle t e]) := by
    change r.loader.cache.ticketOf? t.chunk = some t at ht
    simp [Loader.report, ht]
  cases hook with
  | true =>
    have hstep : (r.steps [.invoke (.report t.chunk e), .returns]).loader =
        r.loader.settleEntry t e := by
      simp [Run.steps, Run.step, Loader.invoke, hrep, Loader.drive, Loader.perform, Loader.consult,
        h.solo.bare.plan, after, hon]
    rw [if_pos rfl, hstep]
    exact not_pending_settleEntry ..
  | false =>
    have hstep : (r.step (.invoke (.report t.chunk e))).loader = r.loader.settleEntry t e := by
      simp [Run.step, Loader.invoke, hrep, Loader.drive, Loader.perform, Loader.consult,
        h.solo.bare.plan, after, hon]
    change (r.step (.invoke (.report t.chunk e))).loader.promises.isPending t.promise = false
    rw [hstep]
    exact not_pending_settleEntry ..

/-- What becomes of the promises that a cache hands out which has handed out none before. -/
theorem pledged (h : Audited policy hook r) (hfresh : r.books.handed = [])
    (hm : r.Admits CacheMove ms) : Pledged hook r ms where
  backed := by
    intro chunk p hh hp
    constructor
    · rintro hb ⟨pre, m, post, t, rfl, hf, rfl, rfl, -⟩
      exact h.not_backed_of_forsakes hm hf _ hb
    · intro hn
      rcases h.backed_or_stranded hfresh hm hh hp with hb | hs
      · exact hb
      · exact absurd hs hn
  closing := fun _ _ => (h.steps hm).closing
  reporting := fun _ _ e hb => (h.steps hm).reporting hb e
  redeeming := fun _ e hb => redeeming hb e
  stranded := by
    rintro pre m post t rfl hf hp hc
    have hpre := admits_append.mp hm
    have before := h.steps hpre.1
    rw [steps_append, steps_cons]
    refine (before.step hpre.2.1).pending_steps hpre.2.2 (before.not_backed hf) hc ?_
    obtain ⟨solo, ready, rest, -, hbooks⟩ := books_forsaken before.solo hf
    have promises : ((r.steps pre).step m).loader.promises = (r.steps pre).loader.promises :=
      congrArg Books.promises hbooks
    rw [promises]
    exact hp

end Audited

/--
A cache by itself, whatever its starter, its hook and its sink do: a promise that was handed out and
is still pending is backed by an attempt in flight, unless a starter that had asked for its own
chunk raised.
-/
theorem pledges_kept {policy : Policy} {hook : Bool} {installed : List (ChunkId × String)}
    {cache : Cache} (hc : Cache.seed installed = .ok cache) (sink : Metrics.Sink) {ms : List Move}
    (hm : Run.Admits CacheMove { loader := .ofCache policy hook cache sink } ms) :
    Pledged hook { loader := .ofCache policy hook cache sink } ms :=
  (Audited.opened policy hook hc sink).pledged rfl hm

/-- Two starters that ask for their own chunk: one raises then, the other one returns. -/
theorem pledges_kept_of_two :
    let opened : Run := { loader := .ofCache {} true {} .silent }
    let moves : List Move :=
      [.invoke (.request (.name "a")), .invoke (.request (.name "a")),
        .raises (.noAddress (.name "a")),
        .invoke (.request (.name "b")), .invoke (.request (.name "b")), .returns]
    Cache.seed [] = .ok {} ∧ Pledged true opened moves ∧
      (opened.steps moves).loader.handed =
        [(.name "a", 0), (.name "b", 1), (.name "b", 1)] ∧
      ((opened.steps moves).step (.invoke .closeCache)).loader.promises.isPending 0 = true ∧
      ((opened.steps moves).step (.invoke .closeCache)).loader.promises.isPending 1 = false := by
  intro opened moves
  have hc : Cache.seed [] = .ok {} := rfl
  have hm : Run.Admits CacheMove opened moves :=
    ⟨trivial, trivial, trivial, trivial, trivial, trivial, trivial⟩
  exact ⟨hc, pledges_kept hc .silent hm, by decide, by decide, by decide⟩

/--
A starter asks for the chunk that it is to fetch, and then raises: between two operations a promise
is pending that was handed out, no entry has it, and it outlives the cache.
-/
theorem pending_after_close :
    let opened : Run := { loader := .ofCache {} false {} .silent }
    let r := opened.steps
      [.invoke (.request (.name "a")), .invoke (.request (.name "a")),
        .raises (.noAddress (.name "a"))]
    r.idle = true ∧ (.name "a", 0) ∈ r.loader.handed ∧
      ¬ (r.loader.promises.isPending 0 = false ∨ r.books.Backed (.name "a") 0) ∧
      (r.step (.invoke .closeCache)).loader.promises.isPending 0 = true := by
  intro opened r
  refine ⟨by decide, by decide, ?_, by decide⟩
  have pending : r.loader.promises.isPending 0 = true := by decide
  have unknown : r.books.ticket (.name "a") = none := by decide
  rintro (hp | ⟨t, ht, -⟩)
  · rw [pending] at hp
    cases hp
  · rw [unknown] at ht
    cases ht

end Run

end SingleFlight
