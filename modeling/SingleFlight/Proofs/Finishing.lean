/-
SingleFlight.Proofs.Finishing — a shutdown comes to its end, and is final.

A shutdown that finds the loader open ends the loads and closes the cache at once
(`SingleFlight.Proofs.Shutdown`), then waits for the fetches and for the client
(`SingleFlight.Proofs.Draining`). §1 shows that it does not wait in vain: as long
as the event loop runs, its fetches end one after the other, and it goes on. §2
says what it comes to, whatever is done while it waits and afterwards.

A shutdown that finds the loader closed does nothing at all. It does not wait for
the one that closed it, nor does it make up for one that was cancelled or raised an
error; `shutdown_in_vain` shows a run of each kind.

* `Loader.owed` — how much a shutdown still waits for; `Loader.Brings` — the jobs
  that make it less.
* `Run.Rested.drains` — the event loop brings a shutdown to its end.
* `Run.shutdown` — the result.
-/
import SingleFlight.Proofs.Draining
import SingleFlight.Proofs.Histories

namespace SingleFlight

/-! ## §1 The queue is worked off -/

/-- The fetches that a shutdown has not heard of yet. -/
def Closing.left : Closing → List FetchId
  | .stopping left _ => left
  | _ => []

/-- How far a shutdown is from its end, once its fetches are over. -/
def Closing.weight : Closing → Nat
  | .stopping left _ => left.length + 3
  | .releasing none => 2
  | .releasing (some _) => 1
  | _ => 0

namespace Loader

variable {l l' : Loader} {c : ClosingId} {k k' : Closing} {j : Job} {rest : List Job}

/-- How much a shutdown still waits for: fetches to end, to hear of them, its client. -/
def owed (l : Loader) (c : ClosingId) : Nat :=
  match l.closings.get? c with
  | some k => k.weight + k.left.countP fun f => !l.isOver f
  | none => 0

theorem owed_of_get? (hk : l.closings.get? c = some k) :
    l.owed c = k.weight + k.left.countP fun f => !l.isOver f := by
  simp only [owed, hk]

/-- A job that runs leaves a shutdown where it is, or brings it nearer to its end. -/
theorem lowers_of_goes (g : k.Goes l c .runJob k') :
    k' = k ∨ k'.weight < k.weight ∧ k'.left.Sublist k.left := by
  cases g with
  | still => exact .inl rfl
  | @heard left b f hq =>
    by_cases hf : f ∈ left
    · refine .inr ⟨?_, List.erase_sublist⟩
      have shorter := List.length_erase_of_mem hf
      have some_left := List.length_pos_of_mem hf
      simp only [Closing.weight]
      omega
    · exact .inl (by rw [List.erase_of_not_mem hf])
  | dropped => exact .inr ⟨by simp [Closing.weight], List.Sublist.refl _⟩
  | owner => exact .inr ⟨by simp [Closing.weight], List.Sublist.refl _⟩
  | guest => exact .inr ⟨by simp [Closing.weight], List.Sublist.refl _⟩
  | through r => exact .inr ⟨by simp [Closing.weight], List.Sublist.refl _⟩

/-- Of fetches that end, fewer are left. -/
theorem countP_left_le (fs : List FetchId) (ho : ∀ f, l.isOver f = true → l'.isOver f = true) :
    fs.countP (fun f => !l'.isOver f) ≤ fs.countP fun f => !l.isOver f := by
  refine List.countP_mono_left fun f _ hf => ?_
  cases hl : l.isOver f with
  | true => simp [ho f hl] at hf
  | false => rfl

/-- One of the fetches has ended. -/
theorem countP_left_lt {fs : List FetchId} {f : FetchId}
    (ho : ∀ f, l.isOver f = true → l'.isOver f = true) (hf : f ∈ fs) (hl : l.isOver f = false)
    (hl' : l'.isOver f = true) :
    fs.countP (fun f => !l'.isOver f) < fs.countP fun f => !l.isOver f := by
  obtain ⟨before, behind, rfl⟩ := List.append_of_mem hf
  have left_before := countP_left_le before ho
  have left_behind := countP_left_le behind ho
  simp only [List.countP_append, List.countP_cons, hl, hl']
  simp only [Bool.not_true, Bool.not_false, if_true, Bool.false_eq_true, if_false]
  omega

/-- What a shutdown waits for becomes less, or the shutdown is where it was. -/
theorem Runs.lowers (h : Runs l rest j l') (hq : l.ready = j :: rest)
    (hk : l.closings.get? c = some k) : l'.owed c < l.owed c ∨ l'.closings.get? c = some k := by
  have stirs : Stirs l .runJob l' := .ran hq h
  obtain ⟨k', hk', goes⟩ := stirs.goes hk
  rcases lowers_of_goes goes with rfl | ⟨lighter, fewer⟩
  · exact .inr hk'
  · refine .inl ?_
    rw [owed_of_get? hk, owed_of_get? hk']
    have ends := countP_left_le k'.left fun f => stirs.isOver (f := f)
    have sub := fewer.countP_le (p := fun f => !l.isOver f)
    omega

theorem Runs.owed_le (h : Runs l rest j l') (hq : l.ready = j :: rest)
    (hk : l.closings.get? c = some k) : l'.owed c ≤ l.owed c := by
  rcases h.lowers hq hk with less | hk'
  · exact Nat.le_of_lt less
  · have stirs : Stirs l .runJob l' := .ran hq h
    have ends := countP_left_le k.left fun f => stirs.isOver (f := f)
    rw [owed_of_get? hk, owed_of_get? hk']
    omega

/-- A fetch ends that the shutdown has not heard of. -/
theorem owed_lt_of_isOver {f : FetchId} (hk : l.closings.get? c = some k)
    (hk' : l'.closings.get? c = some k) (ho : ∀ f, l.isOver f = true → l'.isOver f = true)
    (hf : f ∈ k.left) (hl : l.isOver f = false) (hl' : l'.isOver f = true) :
    l'.owed c < l.owed c := by
  have fewer := countP_left_lt ho hf hl hl'
  rw [owed_of_get? hk, owed_of_get? hk']
  omega

/-- A job that brings a shutdown nearer to its end. -/
inductive Brings (l : Loader) (c : ClosingId) : Job → Prop
  | ends {j : Job} {k : Closing} {f : FetchId} {h : HandleId} (hj : j = .ask f ∨ j = .answer f)
      (hk : l.closings.get? c = some k) (hf : f ∈ k.left)
      (hs : l.fetches.get? f = some { handle := h, stage := .stopping }) : Brings l c j
  | tells {left : List FetchId} {b : Bool} {f : FetchId}
      (hk : l.closings.get? c = some (.stopping left b)) (hf : f ∈ left) :
      Brings l c (.fetchEnded c f)
  | wakes {k : Closing} (hk : l.closings.get? c = some k) (hr : k.Ready) :
      Brings l c (.wakeClosing c)

theorem Brings.exists_get? (b : l.Brings c j) : ∃ k, l.closings.get? c = some k := by
  cases b with
  | ends hj hk => exact ⟨_, hk⟩
  | tells hk => exact ⟨_, hk⟩
  | wakes hk => exact ⟨_, hk⟩

/-- A shutdown that is not over has such a job in the queue, or waits for its client. -/
theorem Attended.exists_brings (i : l.Attended) (hk : l.closings.get? c = some k) {n : Nat}
    (hc : l.Covers n k) :
    (∃ j ∈ l.ready, l.Brings c j) ∨ k = .releasing none ∨ ∃ e, k = .over e := by
  have provided := i.provided c k hk
  cases k with
  | ending b => exact hc.elim
  | stopping left b =>
    refine .inl ?_
    cases left with
    | nil => exact ⟨_, provided.2.1 rfl, .wakes hk trivial⟩
    | cons f left =>
      rcases provided.2.2 f (List.mem_cons_self ..) with ⟨h, hs⟩ | ⟨-, hj⟩
      · rcases i.posted f _ hs with hj | hj
        · exact ⟨_, hj, .ends (.inl rfl) hk (List.mem_cons_self ..) hs⟩
        · exact ⟨_, hj, .ends (.inr rfl) hk (List.mem_cons_self ..) hs⟩
      · exact ⟨_, hj, .tells hk (List.mem_cons_self ..)⟩
  | releasing result =>
    cases result with
    | none => exact .inr (.inl rfl)
    | some r => exact .inl ⟨_, provided.2 nofun, .wakes hk trivial⟩
  | _ => exact .inr (.inr ⟨_, rfl⟩)

theorem not_isOver_of_stopping {f : FetchId} {h : HandleId}
    (hs : l.fetches.get? f = some { handle := h, stage := .stopping }) : l.isOver f = false := by
  simp [isOver, hs]

/-- While it waits for its turn, it stays such a job. -/
theorem Brings.stays {j' : Job} (b : l.Brings c j) (h : Runs l rest j' l')
    (hq : l.ready = j' :: rest) : l'.owed c < l.owed c ∨ l'.Brings c j := by
  have stirs : Stirs l .runJob l' := .ran hq h
  cases b with
  | ends hj hk hf hs =>
    rcases h.lowers hq hk with less | hk'
    · exact .inl less
    · rcases h.stopping hs with hs' | ho
      · exact .inr (.ends hj hk' hf hs')
      · exact .inl (owed_lt_of_isOver hk hk' (fun f => stirs.isOver (f := f)) hf
          (not_isOver_of_stopping hs) ho)
  | tells hk hf => exact (h.lowers hq hk).imp_right fun hk' => .tells hk' hf
  | wakes hk hr => exact (h.lowers hq hk).imp_right fun hk' => .wakes hk' hr

/-- A fetch that was cancelled ends when it has its turn. -/
theorem Runs.isOver_of_stopping (h : Runs l rest j l') {f : FetchId} {x : HandleId}
    (hj : j = .ask f ∨ j = .answer f)
    (hs : l.fetches.get? f = some { handle := x, stage := .stopping }) : l'.isOver f = true := by
  cases h with
  | aside hidle =>
    rcases hj with rfl | rfl
    · exact absurd rfl (hidle _ hs).2
    · exact absurd rfl (hidle _ hs).1
  | asked hg =>
    rcases hj with hj | hj
    · cases hj
      rw [hg] at hs
      cases hs
    · cases hj
  | ended hj' hg h =>
    rw [h.isOver_iff]
    refine (isOver_endFetch hg).mpr (.inl ?_)
    rcases hj with rfl | rfl <;> rcases hj' with heq | heq <;> cases heq <;> rfl
  | heard => rcases hj with hj | hj <;> cases hj
  | woken => rcases hj with hj | hj <;> cases hj

/-- When it has its turn, the shutdown waits for less. -/
theorem Brings.lowers (b : l.Brings c j) (h : Runs l rest j l') (hq : l.ready = j :: rest) :
    l'.owed c < l.owed c := by
  have stirs : Stirs l .runJob l' := .ran hq h
  cases b with
  | @ends j k f x hj hk hf hs =>
    rcases h.lowers hq hk with less | hk'
    · exact less
    · exact owed_lt_of_isOver hk hk' (fun f => stirs.isOver (f := f)) hf
        (not_isOver_of_stopping hs) (h.isOver_of_stopping hj hs)
  | @tells left b f hk hf =>
    cases h with
    | aside hidle => exact hidle.elim
    | ended hj => rcases hj with hj | hj <;> cases hj
    | heard =>
      rw [owed_of_get? hk, owed_of_get? (get?_fetchEnded (l := { l with ready := rest }) hk f)]
      have shorter := List.length_erase_of_mem hf
      have some_left := List.length_pos_of_mem hf
      have ends := countP_left_le (left.erase f) fun f => stirs.isOver (f := f)
      have sub := (List.erase_sublist (a := f) (l := left)).countP_le (p := fun f => !l.isOver f)
      simp only [Closing.weight, Closing.left]
      omega
  | wakes hk hr =>
    cases h with
    | aside hidle => exact hidle.elim
    | ended hj => rcases hj with hj | hj <;> cases hj
    | woken =>
      obtain ⟨k', hk', -, moves⟩ := goes_wakeClosing hk rest
      rcases Runs.lowers (.woken c) hq hk with less | same
      · exact less
      · exact absurd (Option.some.inj (hk'.symm.trans same)) (moves hr)

/-! ### A shutdown from its beginning to its end -/

/-- A shutdown that waits for what is left of the first `n` fetches. -/
structure Follows (l : Loader) (n : Nat) (c : ClosingId) : Prop where
  attended : l.Attended
  covered : ∃ k, l.closings.get? c = some k ∧ l.Covers n k

theorem Follows.stirs {n : Nat} {m : Move} (h : l.Follows n c) (s : Stirs l m l') :
    l'.Follows n c := by
  obtain ⟨attended, k, hk, covers⟩ := h
  obtain ⟨k', hk', goes⟩ := s.goes hk
  exact ⟨attended.stirs s, k', hk', (covers.goes attended goes).mono fun f => s.isOver⟩

/-- When a shutdown turns to the registry, it waits for each fetch that is not over. -/
theorem covers_closeRegistry (hk : l.closings.get? c = some (.ending false)) :
    ∃ k, (l.closeRegistry c).closings.get? c = some k ∧ k.Calm ∧
      (l.closeRegistry c).Covers l.fetches.size k := by
  have ended := fun f => isOver_closeRegistry (l := l) (f := f) c
  have kept : ∀ f, f < l.fetches.size → l.isOver f = true ∨ f ∈ l.keptFetches := by
    intro f hf
    cases ho : l.isOver f with
    | true => exact .inl rfl
    | false => exact .inr (by simp [keptFetches, hf, ho])
  have turned : l.closeRegistry c = l.stopFetches c false := by simp only [closeRegistry, hk]
  rw [turned] at ended ⊢
  cases hleft : l.keptFetches with
  | nil =>
    simp only [stopFetches, hleft] at ended kept ⊢
    refine ⟨_, get?_releaseClient hk, ?_, ?_⟩
    · split
      · exact .inl rfl
      · exact rfl
    · have done : ∀ f, f < l.fetches.size → (l.releaseClient c false).isOver f = true :=
        fun f hf => ended f ((kept f hf).resolve_right List.not_mem_nil)
      split
      · exact done
      · exact done
  | cons g left =>
    simp only [stopFetches, hleft] at ended kept ⊢
    have row : ((g :: left).foldl Loader.stopFetch l).closings.get? c = some (.ending false) := by
      rw [closings_stopAll]
      exact hk
    exact ⟨_, get?_setClosing_self row _, rfl, fun f hf => (kept f hf).imp_left (ended f)⟩

end Loader

/-- The event loop goes on: its jobs run, calls return, and the client of a shutdown gets closed. -/
def Move.Proceeds (c : ClosingId) : Move → Prop
  | .runJob => True
  | .returns => True
  | .invoke (.clientClosed c' problem) => c' = c ∧ problem = none
  | _ => False

theorem Move.Proceeds.outer {c : ClosingId} {m : Move} (h : m.Proceeds c) : m.Outer := by
  cases m with
  | invoke op =>
    cases op with
    | clientClosed c' problem => trivial
    | _ => exact h.elim
  | _ => trivial

namespace Run

open Loader (Runs Stirs Follows Tended Inert Untouched)

variable {r r' : Run} {c : ClosingId} {j : Job} {n : Nat}

/-- What every change on the list keeps holds wherever the moves lead that make such changes. -/
theorem Rested.of_stirs {I : Loader → Prop} {allowed : Move → Prop}
    (outer : ∀ m, allowed m → m.Outer)
    (keeps : ∀ m l l', allowed m → Stirs l m l' → I l → I l') (h : r.Rested fun _ => True)
    (i : I r.loader) (hr : Reachable (fun _ m => allowed m) r r') :
    r'.Rested (fun _ => True) ∧ I r'.loader := by
  induction hr with
  | start => exact ⟨h, i⟩
  | step _ hm ih =>
    obtain ⟨rested, i'⟩ := ih
    exact ⟨(rested.acts (outer _ hm) (Move.asks_all _)).2, keeps _ _ _ hm (rested.stirs _) i'⟩

/-- The calls under way return one after the other, and that is all. -/
theorem Rested.exists_idle {asked : ChunkId → Prop} (h : r.Rested asked) :
    ∃ n, (r.steps (List.replicate n .returns)).idle = true ∧
      (r.steps (List.replicate n .returns)).loader = r.loader := by
  induction hs : r.suspended generalizing r with
  | nil => exact ⟨0, by simp [Run.steps, idle, hs], rfl⟩
  | cons s outer ih =>
    obtain ⟨hrest, -⟩ := h.acts_back hs
    have returned : r.step .returns = { r with
        suspended := outer, answers := r.answers ++ s.answer.toList } := by
      rw [step_returns hs, hrest]
      rfl
    have rested : (r.step .returns).Rested asked := (h.acts (m := .returns) trivial trivial).2
    obtain ⟨n, hidle, hl⟩ := ih rested (by rw [returned])
    exact ⟨n + 1, hidle, hl.trans (by rw [returned])⟩

/-- The first job in the queue gets its turn. -/
theorem Rested.exists_runs {asked : ChunkId → Prop} (h : r.Rested asked) (c : ClosingId)
    {rest : List Job} (hq : r.loader.ready = j :: rest) :
    ∃ ms, (∀ m ∈ ms, m.Proceeds c) ∧ Runs r.loader rest j (r.steps ms).loader := by
  obtain ⟨n, hidle, hl⟩ := h.exists_idle
  refine ⟨List.replicate n .returns ++ [.runJob], fun m hm => ?_, ?_⟩
  · rcases List.mem_append.mp hm with hm | hm
    · rw [List.eq_of_mem_replicate hm]
      trivial
    · rw [List.mem_singleton.mp hm]
      trivial
  · rw [steps_concat, loader_step_runJob hidle (hl ▸ hq), hl]
    exact Loader.runs_runJob ..

theorem Rested.steps_proceeds (h : r.Rested fun _ => True) {ms : List Move}
    (hms : ∀ m ∈ ms, m.Proceeds c) : (r.steps ms).Rested fun _ => True :=
  (h.of_stirs (I := fun _ => True) (fun _ => Move.Proceeds.outer) (fun _ _ _ _ _ => id) trivial
    (Reachable.start.steps ms fun _ => hms)).1

/-- A job that brings a shutdown nearer to its end gets its turn, unless one before it does that. -/
theorem Rested.exists_lowers (h : r.Rested fun _ => True) {before behind : List Job}
    (hq : r.loader.ready = before ++ j :: behind) (b : r.loader.Brings c j) :
    ∃ ms, (∀ m ∈ ms, m.Proceeds c) ∧ (r.steps ms).loader.owed c < r.loader.owed c := by
  induction before generalizing r behind with
  | nil =>
    obtain ⟨ms, hms, runs⟩ := h.exists_runs c hq
    exact ⟨ms, hms, b.lowers runs hq⟩
  | cons first before ih =>
    obtain ⟨ms, hms, runs⟩ := h.exists_runs c hq
    rcases b.stays runs hq with less | b'
    · exact ⟨ms, hms, less⟩
    · obtain ⟨jobs, hready⟩ := runs.ready
      have hq' : (r.steps ms).loader.ready = before ++ j :: (behind ++ jobs) :=
        hready.trans (List.append_assoc before ..)
      obtain ⟨ms', hms', less⟩ := ih (h.steps_proceeds hms) hq' b'
      obtain ⟨k, hk⟩ := b.exists_get?
      refine ⟨ms ++ ms', List.forall_mem_append.mpr ⟨hms, hms'⟩, ?_⟩
      rw [steps_append]
      exact Nat.lt_of_lt_of_le less (runs.owed_le hq hk)

/-- The event loop brings a shutdown to its end. -/
theorem Rested.drains (h : r.Rested fun _ => True) (f : r.loader.Follows n c) :
    ∃ ms, (∀ m ∈ ms, m.Proceeds c) ∧
      ∃ e, (r.steps ms).loader.closings.get? c = some (.over e) := by
  induction howed : r.loader.owed c using Nat.strong_induction_on generalizing r with
  | _ owed ih =>
    have goOn : ∀ ms, (∀ m ∈ ms, m.Proceeds c) → (r.steps ms).loader.owed c < owed →
        ∃ ms, (∀ m ∈ ms, m.Proceeds c) ∧
          ∃ e, (r.steps ms).loader.closings.get? c = some (.over e) := by
      intro ms hms less
      obtain ⟨rested, follows⟩ := h.of_stirs (fun _ => Move.Proceeds.outer)
        (fun _ _ _ _ s f => Follows.stirs f s) f (Reachable.start.steps ms fun _ => hms)
      obtain ⟨ms', hms', e, he⟩ := ih _ less rested follows rfl
      exact ⟨ms ++ ms', List.forall_mem_append.mpr ⟨hms, hms'⟩, e, by rw [steps_append]; exact he⟩
    obtain ⟨k, hk, covers⟩ := f.covered
    rcases f.attended.exists_brings hk covers with ⟨j, hj, b⟩ | rfl | ⟨e, rfl⟩
    · obtain ⟨before, behind, hq⟩ := List.append_of_mem hj
      obtain ⟨ms, hms, less⟩ := h.exists_lowers hq b
      exact goOn ms hms (howed ▸ less)
    · -- The client is closed now, and the shutdown is woken.
      refine goOn [.invoke (.clientClosed c none)] (by simp [Move.Proceeds]) ?_
      have released : (r.loader.clientClosed c none).1.closings.get? c =
          some (.releasing (some .ok)) := by
        simp only [Loader.clientClosed, hk]
        exact Loader.get?_setClosing_self hk _
      show (r.step (.invoke (.clientClosed c none))).loader.owed c < owed
      rw [← howed, Loader.owed_of_get? hk]
      simp only [step, Loader.invoke, Loader.atOnce, after_loader, Loader.drive,
        Loader.owed_of_get? released]
      simp [Closing.weight, Closing.left]
    · exact ⟨[], by simp, e, hk⟩

/-! ## §2 What a shutdown comes to -/

/-- A shutdown that goes on with the registry waits for all the fetches that there are. -/
theorem Rested.follows (h : r.Rested fun _ => True) (i : r.loader.Attended)
    (ho : r.loader.closed = false) (hd : r.ShutsDown) :
    ∃ n, (∀ f x, (r.step (.invoke .close)).loader.fetches.get? f = some x → f < n) ∧
      (r.step (.invoke .close)).loader.Follows n r.loader.closings.size ∧
        ∃ k, (r.step (.invoke .close)).loader.closings.get? r.loader.closings.size = some k ∧
          k.Calm := by
  obtain ⟨l, habort, heq⟩ := h.step_of_shutsDown ho hd
  have attended := i.stirs (h.stirs (.invoke .close))
  have begun : Untouched r.loader.newClosing.1 r.loader.closing := .same rfl rfl .refl rfl rfl
  have aborted := begun.trans (.abortAll r.loader.active r.loader.closing)
  rw [habort] at aborted
  have row : l.closeCache.closings.get? r.loader.closings.size = some (.ending false) := by
    rw [(aborted.trans (.closeCache l)).closings]
    exact Table.get?_add_size ..
  obtain ⟨k, hk, calm, covers⟩ := Loader.covers_closeRegistry row
  rw [heq] at attended ⊢
  refine ⟨_, fun f x hx => ?_, ⟨attended, k, hk, covers⟩, k, hk, calm⟩
  simp only [Loader.closeRegistry, row, Loader.get?_stopFetches] at hx
  obtain ⟨y, hy, -⟩ := Option.map_eq_some_iff.mp hx
  exact Table.lt_size_iff.mpr ⟨y, hy⟩

/-- No fetch begins any more, unless a handle is attached by hand. -/
theorem Rested.no_fetch_steps (h : r.Rested fun _ => True) (i : r.loader.Inert) {ms : List Move}
    (hms : ∀ m ∈ ms, m.Outer ∧ ∀ h, m ≠ .invoke (.attach h)) {f : FetchId}
    (hf : r.loader.fetches.get? f = none) : (r.steps ms).loader.fetches.get? f = none := by
  have reach : Reachable (fun _ m => m.Outer ∧ ∀ h, m ≠ .invoke (.attach h)) r (r.steps ms) :=
    Reachable.start.steps ms fun _ => hms
  exact (Rested.of_reachable (I := fun l => Inert l ∧ l.fetches.get? f = none)
    (fun _ m hm => ⟨hm.1, m.asks_all⟩)
    (fun _ m hm _ _ _ ha ⟨i, hf⟩ => ⟨(ha.quiet i (m := m)).inert i, (ha.quiet i).fetches hm.2 f hf⟩)
    h ⟨i, hf⟩ reach).2.2

/-- If the fetches that were there are over, so are all that there are. -/
theorem Rested.openFetches_eq_zero (h : r.Rested fun _ => True) (i : r.loader.Inert)
    {ms : List Move} (hms : ∀ m ∈ ms, m.Outer ∧ ∀ h, m ≠ .invoke (.attach h))
    (ended : ∀ f x, r.loader.fetches.get? f = some x → (r.steps ms).loader.isOver f = true) :
    (r.steps ms).loader.openFetches = 0 := by
  refine List.countP_eq_zero.mpr fun x hx => ?_
  obtain ⟨f, hf⟩ := List.getElem?_of_mem hx
  cases hbegun : r.loader.fetches.get? f with
  | none =>
    have none := h.no_fetch_steps i hms hbegun
    cases none.symm.trans hf
  | some y =>
    obtain ⟨z, hz, hover⟩ := Loader.isOver_iff.mp (ended f y hbegun)
    cases hz.symm.trans hf
    simp [hover]

/-- A shutdown that is over stays as it ended. -/
theorem Rested.stays_over (h : r.Rested fun _ => True) {e : TaskEnd}
    (he : r.loader.closings.get? c = some (.over e)) {ms : List Move} (hms : ∀ m ∈ ms, m.Outer) :
    (r.steps ms).loader.closings.get? c = some (.over e) := by
  refine (h.of_stirs (I := fun l => l.closings.get? c = some (.over e)) (fun _ => id)
    (fun m l l' _ s he => ?_) he (Reachable.start.steps ms fun _ => hms)).2
  obtain ⟨k, hk, goes⟩ := s.goes he
  cases goes
  exact hk

/-- A shutdown that nobody disturbs ends normally. -/
theorem Rested.stays_calm (h : r.Rested fun _ => True) {k : SingleFlight.Closing}
    (hk : r.loader.closings.get? c = some k) (calm : k.Calm) {ms : List Move}
    (hms : ∀ m ∈ ms, m.Outer ∧ ¬m.Disturbs c) :
    ∃ k, (r.steps ms).loader.closings.get? c = some k ∧ k.Calm := by
  refine (h.of_stirs (I := fun l => ∃ k, l.closings.get? c = some k ∧ k.Calm) (fun _ hm => hm.1)
    (fun m l l' hm s hi => ?_) ⟨k, hk, calm⟩ (Reachable.start.steps ms fun _ => hms)).2
  obtain ⟨k, hk, calm⟩ := hi
  obtain ⟨k', hk', goes⟩ := s.goes hk
  exact ⟨k', hk', calm.goes goes hm.2⟩

/-- These moves bring the shutdown that begins in `r` to this end. -/
def ShutsBy (r : Run) (ms : List Move) (e : TaskEnd) : Prop :=
  (∀ m ∈ ms, m.Outer) ∧
    ((r.step (.invoke .close)).steps ms).loader.closings.get? r.loader.closings.size =
      some (.over e)

/-- What has come of a shutdown that began in `r`, and that these moves brought to this end. -/
structure Drained (r : Run) (ms : List Move) (e : TaskEnd) : Prop where
  /-- It is over for good. -/
  lasts : ∀ ms' : List Move, (∀ m ∈ ms', m.Outer) → r.ShutsBy (ms ++ ms') e
  /-- It ended normally, if it was not cancelled and its client raised no error. -/
  normal : (∀ m ∈ ms, ¬m.Disturbs r.loader.closings.size) → e = .ok
  /-- The fetches that it found are over, however it ended. -/
  fetches : ∀ f x, (r.step (.invoke .close)).loader.fetches.get? f = some x →
    ((r.step (.invoke .close)).steps ms).loader.isOver f = true
  /-- There are no others, if no handle was attached by hand meanwhile. -/
  alone : (∀ m ∈ ms, ∀ h, m ≠ .invoke (.attach h)) →
    ((r.step (.invoke .close)).steps ms).loader.openFetches = 0
  /-- If it ended normally, the client is closed just if it is the registry's own. -/
  client : e = .ok →
    ∀ client, ((r.step (.invoke .close)).steps ms).loader.registry.client? = some client →
      (client.closed = true ↔ client.owned = true)

/-- What a shutdown does that finds the loader open; if `steady`, the sink refuses no count. -/
structure Finishes (steady : Prop) (r : Run) : Prop extends r.EndsLoads steady where
  /-- The loader is closed at once, even if the shutdown raises an error and does no more. -/
  closes : (r.step (.invoke .close)).loader.closed = true
  /-- Whatever is done while it waits, the event loop can still bring it to its end. -/
  comes : r.ShutsDown → ∀ ms : List Move, (∀ m ∈ ms, m.Outer) →
    ∃ ms', (∀ m ∈ ms', m.Proceeds r.loader.closings.size) ∧ ∃ e, r.ShutsBy (ms ++ ms') e
  drained : r.ShutsDown → ∀ ms e, r.ShutsBy ms e → r.Drained ms e

theorem Rested.closes (h : r.Rested fun _ => True) (t : r.loader.Tended)
    (ho : r.loader.closed = false) : (r.step (.invoke .close)).loader.closed = true := by
  rcases h.step_close ho with ⟨l, -, heq⟩ | ⟨l, f, habort, heq⟩
  · exact (h.shut_close t ho (congrArg Run.answers heq)).2.closed
  · have w : Loader.Whole (fun _ => True) r.loader.closing := h.whole.congr rfl rfl rfl rfl rfl rfl
    obtain ⟨l', leads, hs⟩ := w.leads_abortAll r.loader.active
    have same : l' = l := by
      rcases hs with hs | ⟨f', hs⟩
      · rw [hs] at habort
        cases habort
      · rw [hs] at habort
        cases habort
        rfl
    rw [heq]
    exact same ▸ leads.grows.closed

theorem Rested.drained (h : r.Rested fun _ => True) (t : r.loader.Tended) (i : r.loader.Attended)
    (ho : r.loader.closed = false) (hd : r.ShutsDown) {ms : List Move} {e : TaskEnd}
    (hs : r.ShutsBy ms e) : r.Drained ms e := by
  obtain ⟨hms, he⟩ := hs
  have rested : (r.step (.invoke .close)).Rested fun _ => True :=
    (h.acts (m := .invoke .close) trivial (Move.asks_all _)).2
  have reach : Reachable (fun _ m => m.Outer) (r.step (.invoke .close))
      ((r.step (.invoke .close)).steps ms) := Reachable.start.steps ms fun _ => hms
  obtain ⟨n, bounded, follows, k, hk, calm⟩ := h.follows i ho hd
  obtain ⟨rested', attended, k', hk', covers⟩ := rested.of_stirs (fun _ => id)
    (fun _ _ _ _ s f => Follows.stirs f s) follows reach
  cases hk'.symm.trans he
  have found : ∀ f x, (r.step (.invoke .close)).loader.fetches.get? f = some x →
      ((r.step (.invoke .close)).steps ms).loader.isOver f = true :=
    fun f x hx => covers f (bounded f x hx)
  refine
    { lasts := fun ms' hms' => ⟨List.forall_mem_append.mpr ⟨hms, hms'⟩, ?_⟩
      normal := fun quiet => ?_
      fetches := found
      alone := fun hattach => rested.openFetches_eq_zero (h.shut_close t ho hd).2
        (fun m hm => ⟨hms m hm, hattach m hm⟩) found
      client := ?_ }
  · rw [steps_append]
    exact rested'.stays_over he hms'
  · obtain ⟨k', hk', calm'⟩ := rested.stays_calm hk calm fun m hm => ⟨hms m hm, quiet m hm⟩
    cases hk'.symm.trans he
    exact calm'
  · rintro rfl client hc
    have tended : (r.step (.invoke .close)).loader.Tended :=
      (h.acts (m := .invoke .close) trivial (Move.asks_all _)).1.keeps
        (fun _ _ _ ha t => ha.tended t) h.whole t
    obtain ⟨-, tended'⟩ := Rested.of_reachable (fun _ m hm => ⟨hm, m.asks_all⟩)
      (fun _ _ _ _ _ _ ha t => ha.tended t) rested tended reach
    exact ⟨tended'.own client hc, attended.provided _ _ he rfl client hc⟩

theorem Rested.finishes {steady : Prop} (h : r.Rested fun _ => True) (t : r.loader.Tended)
    (i : r.loader.Attended) (ho : r.loader.closed = false) (hs : steady → r.Settled) :
    r.Finishes steady where
  toEndsLoads := h.endsLoads t ho hs
  closes := h.closes t ho
  comes := by
    intro hd ms hms
    have rested : (r.step (.invoke .close)).Rested fun _ => True :=
      (h.acts (m := .invoke .close) trivial (Move.asks_all _)).2
    obtain ⟨n, -, follows, -⟩ := h.follows i ho hd
    obtain ⟨rested', follows'⟩ := rested.of_stirs (fun _ => id)
      (fun _ _ _ _ s f => Follows.stirs f s) follows (Reachable.start.steps ms fun _ => hms)
    obtain ⟨ms', hms', e, he⟩ := rested'.drains follows'
    refine ⟨ms', hms', e, List.forall_mem_append.mpr ⟨hms, fun m hm => (hms' m hm).outer⟩, ?_⟩
    rw [steps_append]
    exact he
  drained := fun hd ms e hs => h.drained t i ho hd hs

/--
A whole loader is shut down, whatever was done to it before, and by whatever mixture of loads. Its
client was open when it was made; where `sink.Steady` stands, the sink refuses no count. A shutdown
that finds the loader open ends the loads at once, then waits for the fetches and the client, and
comes to its end. By then every promise has an outcome, those that were pending are aborted at their
handle's address, no load, watchdog or fetch is left, and final states are kept; and whatever is
done afterwards, nothing of that changes.

A shutdown that finds the loader closed does nothing and is over at once. It makes no difference how
the loader came to be closed: by a shutdown that is over, one that still waits, one that was
cancelled, or one that raised an error and left its loads where they were.
-/
theorem shutdown {policy : Policy} {resolve : ChunkId → Except Fault String}
    {hasAsset : ChunkId → Bool} {installed : List (ChunkId × String)} {cache : Cache}
    {registry : Registry} {sink : Metrics.Sink} {r : Run}
    (hc : Cache.seed installed = .ok cache)
    (hcl : ∀ c, registry.client? = some c → c.closed = false)
    (hr : Run.Reachable (fun _ m => m.Outer)
      { loader := .whole policy resolve hasAsset cache registry sink } r) :
    (r.loader.closed = false → r.Finishes sink.Steady) ∧
      (r.loader.closed = true →
        r.step (.invoke .close) = { r with answers := r.answers ++ [.nothing] }) := by
  have tended : Tended (.whole policy resolve hasAsset cache registry sink) :=
    { active_iff := by simp [Loader.whole, Table.get?]
      watched := fun w hm => by cases hm
      served := fun a x ha => by simp [Loader.whole, Table.get?] at ha
      own := fun c hc hclosed => by
        rw [hcl c hc] at hclosed
        cases hclosed }
  have attended : Loader.Attended (.whole policy resolve hasAsset cache registry sink) :=
    { placed := fun f x hf => by simp [Loader.whole, Table.get?] at hf
      posted := fun f x hf => by simp [Loader.whole, Table.get?] at hf
      told := fun c f hj => by cases hj
      provided := fun c k hk => by simp [Loader.whole, Table.get?] at hk }
  have opened := Rested.opened (fun _ => True) policy resolve hasAsset hc registry sink
  obtain ⟨rested, t⟩ := Rested.of_reachable (fun _ m hm => ⟨hm, m.asks_all⟩)
    (fun _ _ _ _ _ _ ha t => ha.tended t) opened tended hr
  obtain ⟨-, i⟩ := opened.of_stirs (fun _ => id) (fun _ _ _ _ s i => i.stirs s) attended hr
  refine ⟨fun ho => rested.finishes t i ho fun steady => ?_, fun ho => ?_⟩
  · have settled : Settled { loader := .whole policy resolve hasAsset cache registry sink } :=
      ⟨Loader.coupled_whole policy resolve hasAsset hc registry steady, fun s h => by cases h⟩
    exact settled.of_reachable hr
  · simp [step, Loader.invoke, ho, Loader.atOnce, Loader.drive, after]

/--
One chunk is loaded and two are in flight when the loader is shut down; the client's answer to one
of these comes too late. The shutdown waits for that fetch, then for the client.
-/
theorem shutdown_of_three :
    let opened : Run :=
      { loader := .whole {} (fun chunk => .ok (if chunk.text = "a" then "/a.css" else "/b.css"))
          (fun _ => true) {} (.keyed [] { owned := true }) .silent }
    let r := opened.steps
      [.invoke (.request (.name "a")), .invoke (.request (.name "b")),
        .invoke (.request (.name "c")), .runJob, .runJob,
        .invoke (.respond "/a.css" (.response 200 "" "")), .runJob,
        .invoke (.respond "/b.css" (.response 200 "" ""))]
    let r₁ := r.step (.invoke .close)
    let r₂ := r₁.steps [.runJob, .runJob, .runJob, .runJob, .runJob, .runJob]
    let r₃ := r₂.steps [.invoke (.clientClosed 0 none), .runJob]
    r.Finishes (Metrics.Sink.Steady .silent) ∧
      r₁.step (.invoke .close) = { r₁ with answers := r₁.answers ++ [.nothing] } ∧
        r.loader.cache.inFlight.length = 2 ∧ r₁.loader.openFetches = 1 ∧
          r₁.loader.cache.state (.name "a") = .loaded ∧
            r₂.loader.cache.state (.name "b") = .unknown ∧ r₂.loader.openFetches = 0 ∧
              (r₂.loader.closings.get? 0).any Closing.awaitsClient = true ∧
                (r₃.loader.closings.get? 0).any (· matches .over .ok) = true ∧
                  (r₃.loader.registry.client?.map (·.closed)) = some true := by
  intro opened r r₁ r₂ r₃
  have hc : Cache.seed [] = .ok {} := rfl
  have hcl : ∀ c, (Registry.keyed [] { owned := true }).client? = some c → c.closed = false := by
    intro c h
    cases h
    rfl
  have hr : Reachable (fun _ m => m.Outer) opened r := by
    refine Reachable.start.steps _ fun s m hm => ?_
    simp only [List.mem_cons, List.not_mem_nil, or_false] at hm
    rcases hm with rfl | rfl | rfl | rfl | rfl | rfl | rfl | rfl
    all_goals trivial
  have hr₁ : Reachable (fun _ m => m.Outer) opened r₁ := .step hr trivial
  exact ⟨(shutdown hc hcl hr).1 (by decide), (shutdown hc hcl hr₁).2 (by decide), by decide,
    by decide, by decide, by decide, by decide, by decide, by decide, by decide⟩

/--
A shutdown that finds the loader closed is over at once, though there may be a fetch under way and
the registry's own client open: while the shutdown before it waits for that fetch, when that one was
cancelled before it got to the client, and when a load that it ended raised an error.
-/
theorem shutdown_in_vain :
    let opened : Run :=
      { loader := .whole {} (fun _ => .ok "/a.css") (fun _ => true) {}
          (.keyed [] { owned := true }) .silent }
    let waiting := opened.steps [.invoke (.request (.name "a")), .runJob, .invoke .close]
    let cancelled := waiting.steps
      [.invoke (.cancelClosing 0), .runJob, .runJob, .runJob, .runJob]
    let failed := opened.steps
      [.invoke (.load (.name "a") "/a.css" (.call 0)), .runJob, .invoke .close,
        .raises (.foreign "boom")]
    let open? (r : Run) := r.loader.registry.client?.any fun c => c.owned && !c.closed
    (waiting.step (.invoke .close)).answers = waiting.answers ++ [.nothing] ∧
      (waiting.step (.invoke .close)).loader.openFetches = 1 ∧
        open? (waiting.step (.invoke .close)) = true ∧
    (cancelled.loader.closings.get? 0).any (· matches .over .cancelled) = true ∧
      (cancelled.step (.invoke .close)).answers = cancelled.answers ++ [.nothing] ∧
        open? (cancelled.step (.invoke .close)) = true ∧
    (failed.step (.invoke .close)).answers = failed.answers ++ [.nothing] ∧
      (failed.step (.invoke .close)).loader.openFetches = 1 ∧
        open? (failed.step (.invoke .close)) = true := by
  decide

end Run

end SingleFlight
