/-
SingleFlight.Proofs.Marshalled — reports that wait for the event loop.

A report can be made from outside the loop. Then it is only queued, with its chunk
and its signal, and not with the attempt that it is about: when the loop gets to
it, it is about the attempt that is in flight then. That is the one that was in
flight when the report was made, or, if that one has ended and the chunk was
requested again, a later one.

* `Run.ran` — the jobs that the loop has run in a history; `Audited.in_order` says
  that the queue is worked off in order.
* `Loader.Settles` — one attempt has ended, and nothing else has changed.
* `Run.Marshalled` — what becomes of such a report; `Run.report_at_its_turn` proves
  it, and `Run.newer_attempt_settled` is a run in which it ends a newer attempt.
-/
import SingleFlight.Proofs.Pledges

namespace SingleFlight

namespace Loader

/-- The attempt of a ticket has ended by a signal, and nothing else has changed. -/
structure Settles (l : Loader) (t : Ticket) (e : LoadEvent) (l' : Loader) : Prop where
  entry : ∀ k, l'.cache.find? k =
    if k = t.chunk then (if e.isLoad then some .loaded else none) else l.cache.find? k
  promise : l.promises.isPending t.promise = true →
    l'.promises.outcome? t.promise = some (l.outcomeOf t.chunk e)
  others : ∀ p, p ≠ t.promise → l'.promises.outcome? p = l.promises.outcome? p

theorem settles_settleEntry (l : Loader) (t : Ticket) (e : LoadEvent) :
    l.Settles t e (l.settleEntry t e) := by
  obtain ⟨ready, log, hset⟩ := l.settleEntry_eq t e
  rw [hset]
  exact
    { entry := fun k => Cache.find?_ended ..
      promise := fun hp => Promises.outcome?_settle_of_isPending hp _
      others := fun p hp => Promises.outcome?_settle_of_ne _ _ p _ hp }

/-- What happens to the queue does not show in the end of an attempt. -/
theorem Settles.of_ready {l l' : Loader} {t : Ticket} {e : LoadEvent} {rest : List Job}
    (h : Settles { l with ready := rest } t e l') : l.Settles t e l' :=
  ⟨h.entry, h.promise, h.others⟩

end Loader

namespace Run

/-! ## §1 The queue -/

/-- The job that a move takes off the queue. -/
def taken (r : Run) : Move → List Job
  | .runJob => if r.idle then r.loader.ready.head?.toList else []
  | _ => []

/-- The jobs that the loop runs in a history, in order. -/
def ran : Run → List Move → List Job
  | _, [] => []
  | r, m :: ms => r.taken m ++ (r.step m).ran ms

variable {policy : Policy} {hook : Bool} {r : Run} {m : Move} {ms : List Move} {chunk : ChunkId}
  {e : LoadEvent} {t : Ticket}

/-- A move takes the first job off the queue, or puts one at its end, or does neither. -/
theorem taken_append_readyAfter (r : Run) (m : Move) :
    ∃ more, r.loader.ready ++ more = r.taken m ++ r.readyAfter m := by
  have none : r.taken m = [] → r.readyAfter m = r.loader.ready →
      ∃ more, r.loader.ready ++ more = r.taken m ++ r.readyAfter m := by
    intro ht hr
    exact ⟨[], by rw [ht, hr, List.append_nil, List.nil_append]⟩
  cases m with
  | invoke op =>
    cases op with
    | reportLater chunk e =>
      simp only [taken, readyAfter]
      split
      · exact ⟨[.report chunk e], rfl⟩
      · exact ⟨[], by simp⟩
    | _ => exact none rfl rfl
  | runJob =>
    simp only [taken, readyAfter]
    cases r.loader.ready with
    | nil => exact ⟨[], by simp⟩
    | cons job rest => exact ⟨[], by split <;> simp⟩
  | _ => exact none rfl rfl

/-- The queue is worked off in order: what comes later is run after what is there. -/
theorem Audited.in_order : ∀ {ms : List Move} {r : Run}, Audited policy hook r →
    r.Admits CacheMove ms → ∃ more, r.loader.ready ++ more = r.ran ms ++ (r.steps ms).loader.ready
  | [], r, _, _ => ⟨[], by simp [ran, Run.steps]⟩
  | m :: ms, r, h, hm => by
    obtain ⟨first, hfirst⟩ := r.taken_append_readyAfter m
    obtain ⟨more, hmore⟩ := in_order (h.step hm.1) hm.2
    rw [(h.solo.kept hm.1).ready] at hmore
    refine ⟨first ++ more, ?_⟩
    calc r.loader.ready ++ (first ++ more)
        = r.taken m ++ (r.readyAfter m ++ more) := by
          rw [← List.append_assoc, hfirst, List.append_assoc]
      _ = r.taken m ++ ((r.step m).ran ms ++ ((r.step m).steps ms).loader.ready) := by rw [hmore]
      _ = r.ran (m :: ms) ++ (r.steps (m :: ms)).loader.ready := by
          rw [ran, steps_cons, List.append_assoc]

/-! ## §2 The attempt that a report is about -/

/-- An attempt that is in flight later is the same one, or was started later. -/
theorem Audited.newer (h : Audited policy hook r) (hm : r.Admits CacheMove ms)
    (ht : r.loader.cache.ticketOf? chunk = some t) {t' : Ticket}
    (ht' : (r.steps ms).loader.cache.ticketOf? chunk = some t') :
    t' = t ∨ t.attempt < t'.attempt := by
  have kept := hm.keeps (I := fun s => Audited policy hook s ∧
    t.attempt ≤ s.books.attempts chunk ∧
      ∀ t', s.books.ticket chunk = some t' → t' = t ∨ t.attempt < t'.attempt)
    (fun s x ⟨hs, hle, hnew⟩ hx => ?_) ⟨h, ?_, ?_⟩
  · exact kept.2.2 t' ht'
  · have dealt := hs.dealt hx
    refine ⟨hs.step hx, Nat.le_trans hle (dealt.attempts_le chunk), fun t' ht' => ?_⟩
    rcases dealt.ticket ht' with ⟨old, -⟩ | ⟨-, rfl, -⟩
    · exact hnew t' old
    · exact .inr (Nat.lt_succ_of_le hle)
  · exact Nat.le_of_eq (h.sound.latest chunk t ht).2
  · intro t' ht'
    change r.loader.cache.ticketOf? chunk = some t' at ht'
    rw [ht] at ht'
    exact .inl (Option.some.inj ht').symm

/-- The use in which the loop has just taken the first job off its queue. -/
def popped (r : Run) : Run :=
  { r with loader := { r.loader with ready := r.loader.ready.tail } }

/-- A report whose turn has come is worked through like one that is made then. -/
theorem step_runJob_report (hi : r.idle = true) {rest : List Job}
    (hq : r.loader.ready = .report chunk e :: rest) :
    r.step .runJob = r.after none
      (({ r.loader with ready := rest }.report chunk e).1.drive
        ({ r.loader with ready := rest }.report chunk e).2) := by
  simp [step, hi, Loader.nextJob?, hq, Loader.runJob]

theorem report_of_ticket {l : Loader} (ht : l.cache.ticketOf? chunk = some t) :
    l.report chunk e = (l, [.consult chunk e, .settle t e]) := by
  simp [Loader.report, ht]

/-- What becomes of a report that is made from outside the loop while an attempt is in flight. -/
structure Marshalled (hook : Bool) (r : Run) (chunk : ChunkId) (e : LoadEvent) (t : Ticket)
    (ms : List Move) (r' : Run) : Prop where
  /-- Making it queues it and does nothing else. -/
  queued : r.step (.invoke (.reportLater chunk e)) =
    { r with loader := r.loader.queue (.report chunk e), answers := r.answers ++ [.nothing] }
  /-- It is run after what was queued before it, and before what is queued later. -/
  inOrder : ∃ more, r.loader.ready ++ .report chunk e :: more =
    (r.step (.invoke (.reportLater chunk e))).ran ms ++ r'.loader.ready
  /-- By then the attempt may have ended, and a later one may be in flight. -/
  newer : ∀ t', r'.loader.cache.ticketOf? chunk = some t' → t' = t ∨ t.attempt < t'.attempt
  /-- When its turn comes, it does what a report does that is made then. -/
  acts : ∀ rest, r'.idle = true → r'.loader.ready = .report chunk e :: rest →
    (r'.step .runJob).loader = (r'.popped.step (.invoke (.report chunk e))).loader ∧
      (r'.step .runJob).calls = (r'.popped.step (.invoke (.report chunk e))).calls
  /-- If nothing is in flight then, it changes neither an entry nor a promise. -/
  missed : ∀ rest, r'.idle = true → r'.loader.ready = .report chunk e :: rest →
    r'.loader.cache.ticketOf? chunk = none →
      (r'.step .runJob).loader.cache = r'.loader.cache ∧
        (r'.step .runJob).loader.promises = r'.loader.promises
  /-- Otherwise it ends the attempt that is in flight then. -/
  settles : hook = false → ∀ rest t', r'.idle = true → r'.loader.ready = .report chunk e :: rest →
    r'.loader.cache.ticketOf? chunk = some t' → r'.loader.Settles t' e (r'.step .runJob).loader
  /-- A hook sees it first, and then it ends that attempt, unless the hook raises. -/
  consults : hook = true → ∀ rest t', r'.idle = true → r'.loader.ready = .report chunk e :: rest →
    r'.loader.cache.ticketOf? chunk = some t' →
      r'.step .runJob =
        { r'.popped with
          suspended := [⟨.consult chunk e, [.settle t' e], none⟩]
          calls := r'.calls ++ [.consult chunk e] } ∧
      ∀ s : Run, s.suspended = [⟨.consult chunk e, [.settle t' e], none⟩] →
        (s.loader.cache.honours t' = true → s.loader.Settles t' e (s.step .returns).loader) ∧
          (s.loader.cache.honours t' = false → (s.step .returns).loader = s.loader) ∧
            ∀ f, (s.step (.raises f)).loader = s.loader

namespace Audited

theorem queued (h : Audited policy hook r) (ht : r.loader.cache.ticketOf? chunk = some t)
    (e : LoadEvent) : r.step (.invoke (.reportLater chunk e)) =
      { r with loader := r.loader.queue (.report chunk e), answers := r.answers ++ [.nothing] } := by
  have used : r.loader.cache.used = true := h.sound.used chunk t ht
  simp [Run.step, Loader.invoke, used, Loader.atOnce, Loader.drive, after]

/-- A report at its turn and one that is made then come to the same. -/
theorem acts (hi : r.idle = true) {rest : List Job}
    (hq : r.loader.ready = .report chunk e :: rest) :
    (r.step .runJob).loader = (r.popped.step (.invoke (.report chunk e))).loader ∧
      (r.step .runJob).calls = (r.popped.step (.invoke (.report chunk e))).calls := by
  have hstep := step_runJob_report hi hq
  have hmade : r.popped.step (.invoke (.report chunk e)) = r.popped.after (some .nothing)
      (({ r.loader with ready := rest }.report chunk e).1.drive
        ({ r.loader with ready := rest }.report chunk e).2) := by
    simp [Run.step, Loader.invoke, popped, hq]
  rw [hstep, hmade]
  cases ({ r.loader with ready := rest }.report chunk e).1.drive
      ({ r.loader with ready := rest }.report chunk e).2 with
  | mk l progress => cases progress <;> exact ⟨rfl, rfl⟩

theorem missed (hi : r.idle = true) {rest : List Job}
    (hq : r.loader.ready = .report chunk e :: rest)
    (hn : r.loader.cache.ticketOf? chunk = none) :
    (r.step .runJob).loader.cache = r.loader.cache ∧
      (r.step .runJob).loader.promises = r.loader.promises := by
  have hrep : { r.loader with ready := rest }.report chunk e =
      ({ r.loader with ready := rest }.noteIdle chunk e, []) := by
    simp [Loader.report, hn]
  rw [step_runJob_report hi hq, hrep]
  exact ⟨rfl, rfl⟩

theorem settles (h : Audited policy false r) (hi : r.idle = true) {rest : List Job}
    (hq : r.loader.ready = .report chunk e :: rest)
    (ht : r.loader.cache.ticketOf? chunk = some t) :
    r.loader.Settles t e (r.step .runJob).loader := by
  have hon : { r.loader with ready := rest }.cache.honours t = true :=
    Cache.honours_of_ticketOf? ht
  have hstep : (r.step .runJob).loader = { r.loader with ready := rest }.settleEntry t e := by
    rw [step_runJob_report hi hq, report_of_ticket (l := { r.loader with ready := rest }) ht]
    simp [Loader.drive, Loader.perform, Loader.consult, h.solo.bare.plan, hon, after]
  rw [hstep]
  exact .of_ready (Loader.settles_settleEntry ..)

theorem consults (h : Audited policy true r) (hi : r.idle = true) {rest : List Job}
    (hq : r.loader.ready = .report chunk e :: rest)
    (ht : r.loader.cache.ticketOf? chunk = some t) :
    r.step .runJob =
      { r.popped with
        suspended := [⟨.consult chunk e, [.settle t e], none⟩]
        calls := r.calls ++ [.consult chunk e] } := by
  have alone : r.suspended = [] := List.isEmpty_iff.mp hi
  rw [step_runJob_report hi hq, report_of_ticket (l := { r.loader with ready := rest }) ht]
  simp [Loader.drive, Loader.perform, Loader.consult, h.solo.bare.plan, after, popped, hq, alone]

end Audited

/-- The hook has seen a report: when it returns, the report counts, if it is still about anything. -/
theorem consulted {s : Run} {answer : Option Answer}
    (hs : s.suspended = [⟨.consult chunk e, [.settle t e], answer⟩]) :
    (s.loader.cache.honours t = true → s.loader.Settles t e (s.step .returns).loader) ∧
      (s.loader.cache.honours t = false → (s.step .returns).loader = s.loader) ∧
        ∀ f, (s.step (.raises f)).loader = s.loader := by
  refine ⟨fun hon => ?_, fun hon => ?_, fun f => ?_⟩
  · have hstep : (s.step .returns).loader = s.loader.settleEntry t e := by
      simp [step, hs, Loader.drive, Loader.perform, hon, after]
    rw [hstep]
    exact Loader.settles_settleEntry ..
  · simp [step, hs, Loader.drive, Loader.perform, hon, after]
  · simp [step, hs, Loader.unwind, after]

/--
A cache by itself, whatever its starter, its hook and its sink do, and whenever the loop runs: a
report from outside the loop is about the attempt that is in flight when its turn comes.
-/
theorem report_at_its_turn {policy : Policy} {hook : Bool} {installed : List (ChunkId × String)}
    {cache : Cache} (hc : Cache.seed installed = .ok cache) (sink : Metrics.Sink)
    {pre ms : List Move} {chunk : ChunkId} {e : LoadEvent} {t : Ticket}
    (hm : Run.Admits CacheMove { loader := .ofCache policy hook cache sink }
      (pre ++ .invoke (.reportLater chunk e) :: ms))
    (ht : (Run.steps { loader := .ofCache policy hook cache sink } pre).loader.cache.ticketOf?
      chunk = some t) :
    Marshalled hook (Run.steps { loader := .ofCache policy hook cache sink } pre) chunk e t ms
      (Run.steps { loader := .ofCache policy hook cache sink }
        (pre ++ .invoke (.reportLater chunk e) :: ms)) := by
  obtain ⟨hpre, hlater, hms⟩ := admits_append.mp hm
  have h := (Audited.opened policy hook hc sink).steps hpre
  have h' := h.step hlater
  rw [steps_append, steps_cons]
  generalize Run.steps { loader := .ofCache policy hook cache sink } pre = r at *
  have hqueue := h.queued ht e
  have now := h'.steps hms
  refine
    { queued := hqueue
      inOrder := ?_
      newer := ?_
      acts := fun rest hi hq => Audited.acts hi hq
      missed := fun rest hi hq hn => Audited.missed hi hq hn
      settles := ?_
      consults := ?_ }
  · obtain ⟨more, hmore⟩ := h'.in_order hms
    refine ⟨more, ?_⟩
    rw [← hmore, hqueue]
    simp [Loader.queue]
  · intro t' ht'
    refine h'.newer hms ?_ ht'
    rw [hqueue]
    exact ht
  · rintro rfl rest t' hi hq ht'
    exact now.settles hi hq ht'
  · rintro rfl rest t' hi hq ht'
    exact ⟨now.consults hi hq ht', fun s hs => consulted hs⟩

/-- An attempt that is still in flight when the report about it gets its turn. -/
theorem report_at_its_turn_in_time :
    let opened : Run := { loader := .ofCache {} false {} .silent }
    let pre : List Move := [.invoke (.request (.name "a")), .returns]
    let e : LoadEvent := { type := "load" }
    let r := opened.steps (pre ++ [.invoke (.reportLater (.name "a") e), .setClock 1])
    Cache.seed [] = .ok {} ∧
      Marshalled false (opened.steps pre) (.name "a") e ⟨.name "a", 0, 1⟩ [.setClock 1] r ∧
      r.idle = true ∧ r.loader.ready = [.report (.name "a") e] ∧
      (r.step .runJob).loader.cache.find? (.name "a") = some .loaded := by
  intro opened pre e r
  have hc : Cache.seed [] = .ok {} := rfl
  have hm : Run.Admits CacheMove opened
      (pre ++ .invoke (.reportLater (.name "a") e) :: [.setClock 1]) :=
    ⟨trivial, trivial, trivial, trivial, trivial⟩
  exact ⟨hc, report_at_its_turn hc .silent hm (by decide), by decide, by decide, by decide⟩

/--
A report is made from outside the loop while the first attempt is in flight. Before its turn comes,
that attempt ends and a second one is started: the report ends the second one and its promise.
-/
theorem newer_attempt_settled :
    let opened : Run := { loader := .ofCache {} false {} .silent }
    let first := opened.steps [.invoke (.request (.name "a")), .returns]
    let r := first.steps
      [.invoke (.reportLater (.name "a") { type := "error" }),
        .invoke (.redeem ⟨.name "a", 0, 1⟩ { type := "error" }),
        .invoke (.request (.name "a")), .returns]
    first.loader.cache.ticketOf? (.name "a") = some ⟨.name "a", 0, 1⟩ ∧
      r.loader.cache.ticketOf? (.name "a") = some ⟨.name "a", 1, 2⟩ ∧
      r.loader.promises.isPending 1 = true ∧
      (r.step .runJob).loader.cache.ticketOf? (.name "a") = none ∧
      (r.step .runJob).loader.promises.isPending 1 = false :=
  ⟨by decide, by decide, by decide, by decide, by decide⟩

end Run

end SingleFlight
