/-
SingleFlight.Proofs.Raising — loads whose users raise errors.

A shutdown and a signal tell several loads, one after the other, and each of
those who are told may raise an error. Nobody catches it on its way: it ends the
operation that made the call, and what was left of the shutdown or of the signal
is lost. So all the loads are reached if the calls of the operation itself
return, whatever happens inside of them, and else only those that were reached
before the error.

A shutdown may be asked for in any state. A signal goes along what its slot
holds, and slots that were written to from outside may hold loads that are over,
which stop it; so signals are about slots that only loads have written to.

* `Run.Calm` — the moves that are not such an error.
* `Run.Aborting` — a shutdown that is under way.
* `Run.Closing`, `Run.Signalling` — what a shutdown and a signal come to.
-/
import SingleFlight.Proofs.Sharing

namespace SingleFlight

namespace Loader.Loading

variable {l : Loader}

/-- A shutdown tells the first load in its list that is active, if there is one. -/
theorem drive_abort (h : Loading l none) (left : List AttemptId) :
    ((∀ b ∈ left, b ∉ l.active) ∧ l.drive [.abort left] = (l, .finished)) ∨
      ∃ past a left' x k l' e, left = past ++ a :: left' ∧ (∀ b ∈ past, b ∉ l.active) ∧
        l.attempts.get? a = some x ∧ e.type = "abort" ∧ l.conclude a x e = (l', none) ∧
        l.drive [.abort left] = (l', .calling (.tell a k e) [.signal {} e, .abort left']) := by
  rcases h.abortAll_cases left with
    ⟨hleft, hs⟩ | ⟨past, a, left', x, k, l', hl, hpast, hx, -, -, hcon, hs⟩
  · refine .inl ⟨hleft, ?_⟩
    simp only [drive, perform, hs]
  · refine .inr ⟨past, a, left', x, k, l', l.endSignal a "abort", hl, hpast, hx, rfl, hcon, ?_⟩
    simp only [drive, perform, hs]
    rfl

end Loader.Loading

namespace Run

/-! ## §1 Loads stay, and so do the calls under way -/

/-- Every move but an error of a call that was made while just the calls in `base` were under way. -/
def Calm (base : List Suspension) (r : Run) (m : Move) : Prop :=
  m.OfLoads ∧ ∀ f s, m = .raises f → r.suspended ≠ s :: base

/-- A load is over: it is not active, it has no watchdog, and it was told once. -/
structure Ended (r : Run) (a : AttemptId) : Prop where
  inactive : a ∉ r.loader.active
  disarmed : ∀ w ∈ r.loader.watchdogs, w.attempt ≠ a
  told : r.calls.countP (Call.tells a) = 1

section Moves

variable {r : Run} {m : Move} {a : AttemptId}

theorem suspended_after (r : Run) (answer : Option Answer) (p : Loader × Progress) :
    ∃ inner, (r.after answer p).suspended = inner ++ r.suspended := by
  obtain ⟨l, progress⟩ := p
  cases progress with
  | finished => exact ⟨[], rfl⟩
  | raised f => exact ⟨[], rfl⟩
  | calling call rest => exact ⟨[_], rfl⟩

/-- Only the innermost call can end; everything else leaves the calls under way as they are. -/
theorem suspended_step (r : Run) (m : Move) :
    (∃ inner, (r.step m).suspended = inner ++ r.suspended) ∨
      ∃ s outer inner, r.suspended = s :: outer ∧ (m = .returns ∨ ∃ f, m = .raises f) ∧
        (r.step m).suspended = inner ++ outer := by
  have still : r.step m = r → ∃ inner, (r.step m).suspended = inner ++ r.suspended :=
    fun hstep => ⟨[], by rw [hstep]; rfl⟩
  cases m with
  | invoke op =>
    refine .inl ?_
    simp only [step]
    split
    · exact ⟨[], rfl⟩
    · exact suspended_after _ _ _
  | returns =>
    cases hs : r.suspended with
    | nil => exact .inl (by rw [← hs]; exact still (by simp [step, hs]))
    | cons s outer =>
      obtain ⟨inner, hinner⟩ := suspended_after { r with suspended := outer } s.answer
        (r.loader.drive s.rest)
      rw [← step_returns hs] at hinner
      exact .inr ⟨s, outer, inner, rfl, .inl rfl, hinner⟩
  | raises f =>
    cases hs : r.suspended with
    | nil => exact .inl (by rw [← hs]; exact still (by simp [step, hs]))
    | cons s outer =>
      obtain ⟨inner, hinner⟩ := suspended_after { r with suspended := outer } s.answer
        (r.loader.unwind f s.rest)
      refine .inr ⟨s, outer, inner, rfl, .inr ⟨f, rfl⟩, ?_⟩
      simp only [step, hs]
      exact hinner
  | runJob =>
    refine .inl ?_
    simp only [step]
    split
    · exact suspended_after _ _ _
    · exact ⟨[], rfl⟩
  | fire target =>
    refine .inl ?_
    simp only [step]
    split
    · exact suspended_after _ _ _
    · exact ⟨[], rfl⟩
  | setClock now =>
    refine .inl ⟨[], ?_⟩
    simp only [step]
    split <;> rfl
  | reorder active =>
    refine .inl ⟨[], ?_⟩
    simp only [step]
    split <;> rfl
  | replan resolve hasAsset => exact .inl ⟨[], rfl⟩

/-- Loads that began stay known. -/
theorem size_le_of_move (w : Watched r) (hm : m.OfLoads) :
    r.loader.attempts.size ≤ (r.step m).loader.attempts.size := by
  have told : ∀ {l : Loader} {p : Loader × Progress}, l.Loading none →
      Loader.Told (fun _ _ => True) l p → p.1.attempts.size = l.attempts.size := by
    intro l p loading hp
    cases hp with
    | finished => rfl
    | observed => rfl
    | told _ ha _ _ hcon _ =>
      rw [(loading.concluded (by simp) ha hcon).attempts, Table.size_update]
  cases turn_of_move w.loading hm with
  | load chunk url k =>
    rcases step_load w.loading chunk url k with
      ⟨l, h, hstep, -, hat, -⟩ | ⟨l, h, e, l', hstep, -, hat, -, -, -, ended⟩
    · rw [hstep, after_loader, hat, Table.size_add]
      exact Nat.le_succ _
    · rw [hstep, after_loader, ended.attempts, Table.size_update, hat, Table.size_add]
      exact Nat.le_succ _
  | planted handle => exact Nat.le_refl _
  | assigned h onLoad onError loading => exact Nat.le_refl _
  | aside hstep aside =>
    refine Nat.le_of_eq ?_
    rw [hstep, after_loader, aside.attempts]
  | worked hstep origin aside =>
    have loading := aside.loading w.loading
    refine Nat.le_of_eq ?_
    rw [hstep, after_loader, told loading (loading.told_drive origin.ofLoads), aside.attempts]
  | resumed hs =>
    rename_i s outer
    have frames : ∀ f ∈ s.rest, f.OfLoads := w.frames s (by rw [hs]; exact List.mem_cons_self ..)
    refine Nat.le_of_eq ?_
    rw [step_returns hs, after_loader, told w.loading (w.loading.told_drive frames)]
  | raised f hs =>
    rename_i s outer
    have frames : ∀ f ∈ s.rest, f.OfLoads := w.frames s (by rw [hs]; exact List.mem_cons_self ..)
    refine Nat.le_of_eq ?_
    rw [step_raises hs frames]

theorem Watched.lt_of_active (w : Watched r) (ha : a ∈ r.loader.active) :
    a < r.loader.attempts.size := by
  obtain ⟨-, x, hx, -⟩ := (w.loading.orderly.active_iff a).mp ha
  exact Table.lt_size_iff.mpr ⟨x, hx⟩

/-- A load that is known has its outcome, unless it is active. -/
theorem Watched.settled_of_inactive (w : Watched r) (ha : a < r.loader.attempts.size)
    (hi : a ∉ r.loader.active) : ∃ x, r.loader.attempts.get? a = some x ∧ x.settled = true := by
  obtain ⟨x, hx⟩ := Table.lt_size_iff.mp ha
  cases hs : x.settled with
  | true => exact ⟨x, hx, hs⟩
  | false => exact absurd (w.loading.orderly.mem_active_of_unsettled hx hs) hi

theorem Watched.ended (w : Watched r) (ha : a < r.loader.attempts.size)
    (hi : a ∉ r.loader.active) : r.Ended a := by
  obtain ⟨x, hx, -⟩ := w.settled_of_inactive ha hi
  refine ⟨hi, fun wd hw hwa => hi ?_, ?_⟩
  · exact hwa ▸ w.loading.orderly.watched.mem_iff.mp (List.mem_map_of_mem hw)
  · rw [w.told_eq hx, if_neg hi]

theorem Watched.ended_of_told (w : Watched r) {k : CallbackId} {e : LoadEvent}
    (hk : .tell a k e ∈ r.calls) : r.Ended a := by
  obtain ⟨x, hx, -⟩ := w.counted.addressed a k e hk
  refine w.ended (Table.lt_size_iff.mpr ⟨x, hx⟩) fun hact => ?_
  have once := w.told_once hk
  rw [w.told_eq hx, if_pos hact] at once
  cases once

/-- A load that is over stays so. -/
theorem not_mem_active_of_move (w : Watched r) (hm : m.OfLoads)
    (ha : a < r.loader.attempts.size) (hi : a ∉ r.loader.active) :
    a ∉ (r.step m).loader.active := by
  obtain ⟨x, hx, hs⟩ := w.settled_of_inactive ha hi
  have later := later_of_move w hm a x hx hs
  exact (stepped_of_move w hm).watched.loading.orderly.not_mem_active_of_settled later hs

end Moves

/-! ## §2 A shutdown under way -/

/-- A shutdown tells a load just now, and has those in `left` still before it. -/
structure Aborting (base : List Suspension) (left : List AttemptId) (r : Run) : Prop where
  suspended : ∃ inner s e, r.suspended = inner ++ s :: base ∧ s.rest = [.signal {} e, .abort left]

/-- The loads are over, or the shutdown will come to them when the call that it has made returns. -/
structure Shutting (base : List Suspension) (targets : List AttemptId) (r : Run) : Prop where
  watched : Watched r
  known : ∀ a ∈ targets, a < r.loader.attempts.size
  reached : (∀ a ∈ targets, a ∉ r.loader.active) ∨
    ∃ left, Aborting base left r ∧ ∀ a ∈ targets, a ∈ left ∨ a ∉ r.loader.active

section Shutdown

variable {r r' : Run} {m : Move} {base : List Suspension} {targets left : List AttemptId}

/-- A shutdown goes on: it is over, or has come to one more load. -/
theorem reached_of_abort {l : Loader} (loading : l.Loading none) (hr : r.suspended = base)
    (hreached : ∀ a ∈ targets, a ∈ left ∨ a ∉ l.active) (answer : Option Answer) :
    (∀ a ∈ targets, a ∉ (r.after answer (l.drive [.abort left])).loader.active) ∨
      ∃ left', Aborting base left' (r.after answer (l.drive [.abort left])) ∧
        ∀ a ∈ targets, a ∈ left' ∨ a ∉ (r.after answer (l.drive [.abort left])).loader.active := by
  rcases loading.drive_abort left with
    ⟨hpast, hdrive⟩ | ⟨past, b, left', x, k, l', e, rfl, hpast, hx, -, hcon, hdrive⟩
  · rw [hdrive]
    refine .inl fun a ha => ?_
    rcases hreached a ha with hl | hi
    · exact hpast a hl
    · exact hi
  · rw [hdrive]
    have ended := loading.concluded (by simp) hx hcon
    have hactive : ∀ a, a ∉ l.active → a ∉ l'.active := by
      intro a hi hm
      rw [ended.active] at hm
      exact hi (List.mem_of_mem_filter hm)
    refine .inr ⟨left', ⟨[], ⟨.tell b k e, _, answer⟩, e, by rw [← hr]; rfl, rfl⟩, ?_⟩
    intro a ha
    rcases hreached a ha with hl | hi
    · rcases List.mem_append.mp hl with hl | hl
      · exact .inr (hactive a (hpast a hl))
      · rcases List.mem_cons.mp hl with rfl | hl
        · refine .inr fun hm => ?_
          have hm' : a ∈ l'.active := hm
          rw [ended.active] at hm'
          simp at hm'
        · exact .inl hl
    · exact .inr (hactive a hi)

/-- A shutdown begins with all the loads that are active before it. -/
theorem shutting_of_close (w : Watched r) :
    Shutting r.suspended r.loader.active (r.step (.invoke .closeLoads)) where
  watched := (stepped_of_move w (m := .invoke .closeLoads) trivial).watched
  known := fun _ ha =>
    Nat.lt_of_lt_of_le (w.lt_of_active ha) (size_le_of_move w (m := .invoke .closeLoads) trivial)
  reached := reached_of_abort w.loading rfl (fun _ ha => .inl ha) (some .nothing)

theorem Shutting.move (i : Shutting base targets r) (hm : Calm base r m) :
    Shutting base targets (r.step m) := by
  obtain ⟨ofLoads, hcalm⟩ := hm
  have still : ∀ a ∈ targets, a ∉ r.loader.active → a ∉ (r.step m).loader.active :=
    fun a ha hi => not_mem_active_of_move i.watched ofLoads (i.known a ha) hi
  refine ⟨(stepped_of_move i.watched ofLoads).watched, fun a ha =>
    Nat.lt_of_lt_of_le (i.known a ha) (size_le_of_move i.watched ofLoads), ?_⟩
  rcases i.reached with hall | ⟨left, ⟨inner, s, e, hs, hrest⟩, hreached⟩
  · exact .inl fun a ha => still a ha (hall a ha)
  · -- The shutdown is where it was as long as the call that it has made is under way.
    have keep : ∀ inner', (r.step m).suspended = inner' ++ s :: base →
        ∃ left', Aborting base left' (r.step m) ∧
          ∀ a ∈ targets, a ∈ left' ∨ a ∉ (r.step m).loader.active := by
      intro inner' hs'
      refine ⟨left, ⟨inner', s, e, hs', hrest⟩, fun a ha => ?_⟩
      rcases hreached a ha with hl | hi
      · exact .inl hl
      · exact .inr (still a ha hi)
    rcases suspended_step r m with ⟨pushed, hpush⟩ | ⟨s', outer, pushed, hs', hends, hpush⟩
    · refine .inr (keep (pushed ++ inner) ?_)
      rw [hpush, hs, List.append_assoc]
    · cases inner with
      | cons s'' inner =>
        rw [hs'] at hs
        cases hs
        refine .inr (keep (pushed ++ inner) ?_)
        exact hpush.trans (List.append_assoc ..).symm
      | nil =>
        rcases hends with rfl | ⟨f, rfl⟩
        · have hs₀ : r.suspended = s :: base := hs
          have hdrive : r.loader.drive s.rest = r.loader.drive [.abort left] := by
            rw [hrest]
            rfl
          rw [step_returns hs₀, hdrive]
          exact reached_of_abort (r := { r with suspended := base }) i.watched.loading rfl
            hreached s.answer
        · exact absurd hs (hcalm f s rfl)

theorem Shutting.steps {ms : List Move} (i : Shutting base targets r)
    (hms : r.Admits (Calm base) ms) : Shutting base targets (r.steps ms) :=
  hms.keeps (fun _ _ i hm => i.move hm) i

/-- When the calls that a shutdown came upon are the innermost again, its loads are over. -/
theorem Shutting.ended (i : Shutting base targets r) (hs : r.suspended = base) :
    ∀ a ∈ targets, r.Ended a := by
  rcases i.reached with hall | ⟨left, ⟨inner, s, e, hs', -⟩, -⟩
  · exact fun a ha => i.watched.ended (i.known a ha) (hall a ha)
  · have hlen := congrArg List.length (hs.symm.trans hs')
    simp at hlen
    omega

end Shutdown

/-! ## §3 What is reached -/

/-- Of all loads just one has been told and is over; the others, and the calls, are as before. -/
structure OnlyTold (r : Run) (a : AttemptId) (e : LoadEvent) (r' : Run) : Prop where
  told : ∃ k, r'.calls = r.calls ++ [.tell a k e]
  suspended : r'.suspended = r.suspended
  attempts : r'.loader.attempts = r.loader.attempts.update a ({ · with settled := true })
  active : ∀ b, b ∈ r'.loader.active ↔ b ∈ r.loader.active ∧ b ≠ a
  watchdogs : r'.loader.watchdogs = r.loader.watchdogs.filter (·.attempt ≠ a)

/-- A shutdown. -/
structure Closing (r : Run) : Prop where
  /-- It ends all loads that are active, if the calls that it makes return. -/
  all : ∀ ms, (r.step (.invoke .closeLoads)).Admits (Calm r.suspended) ms →
    ((r.step (.invoke .closeLoads)).steps ms).suspended = r.suspended →
      ∀ a ∈ r.loader.active, ((r.step (.invoke .closeLoads)).steps ms).Ended a
  /-- An error of the first that it tells leaves all the others active. -/
  first : ∀ a rest f, r.loader.active = a :: rest → ∃ e, e.type = "abort" ∧
    OnlyTold r a e ((r.step (.invoke .closeLoads)).step (.raises f))
  /-- So does an error of any other leave those that were not told before it. -/
  later : ∀ ms, (∀ m ∈ ms, m.OfLoads) → ∀ s outer f,
    ((r.step (.invoke .closeLoads)).steps ms).suspended = s :: outer →
      ((r.step (.invoke .closeLoads)).steps ms).step (.raises f) =
        { (r.step (.invoke .closeLoads)).steps ms with suspended := outer }

/-- A signal of a handle. -/
structure Signalling (r : Run) : Prop where
  /-- It is the outcome of all loads in its slot, if nothing keeps it from them. -/
  all : ∀ m h type handle, r.Delivers h type m → r.loader.handles.get? h = some handle →
    ∀ ms, (r.step m).Admits (Carries r.suspended h) ms →
      ((r.step m).steps ms).suspended = r.suspended → ∀ a ∈ (handle.slotFor type).waiting,
        (∃ k, .tell a k (r.loader.signalFrom h type) ∈ ((r.step m).steps ms).calls) ∧
          ((r.step m).steps ms).Ended a
  /-- An error of the first that it is told to leaves all the others active. -/
  first : ∀ m h type handle a rest f, r.Delivers h type m → r.loader.handles.get? h = some handle →
    (handle.slotFor type).waiting = a :: rest →
      OnlyTold r a (r.loader.signalFrom h type) ((r.step m).step (.raises f)) ∧
        ∀ b ∈ rest, b ∈ ((r.step m).step (.raises f)).loader.active
  /-- And their handle does not tell them any more. -/
  lost : ∀ m h type handle a rest f, r.Delivers h type m → r.loader.handles.get? h = some handle →
    (handle.slotFor type).waiting = a :: rest → ∀ b ∈ rest, r.Unheard b →
      ∀ ms, (∀ m' ∈ ms, m'.LeavesSlots) → ((r.step m).step (.raises f)).Lasts b ms

section Reached

variable {r : Run} {m : Move}

/-- Whoever is told raises: the work that told them is over. -/
theorem onlyTold_of_raise {l l' : Loader} (aside : r.loader.Aside l) (loading : l.Loading none)
    {a : AttemptId} {x : Attempt} (hx : l.attempts.get? a = some x) {e : LoadEvent}
    (hcon : l.conclude a x e = (l', none)) {answer : Option Answer} {k : CallbackId}
    {rest : List Frame} (hrest : ∀ f ∈ rest, f.OfLoads)
    (hstep : r.step m = r.after answer (l', .calling (.tell a k e) rest)) (f : Fault) :
    OnlyTold r a e ((r.step m).step (.raises f)) := by
  have ended := loading.concluded (by simp) hx hcon
  have hs : (r.step m).suspended = ⟨.tell a k e, rest, answer⟩ :: r.suspended := by
    rw [hstep]
    rfl
  rw [step_raises hs hrest]
  have hl : (r.step m).loader = l' := by
    rw [hstep]
    rfl
  refine ⟨⟨k, by rw [hstep]; rfl⟩, rfl, ?_, fun b => ?_, ?_⟩
  · show (r.step m).loader.attempts = _
    rw [hl, ended.attempts, aside.attempts]
  · show b ∈ (r.step m).loader.active ↔ _
    rw [hl, ended.active, List.mem_filter, aside.active.mem_iff]
    simp
  · show (r.step m).loader.watchdogs = _
    rw [hl, ended.watchdogs, aside.watchdogs]

theorem Watched.closing (w : Watched r) : Closing r where
  all := fun ms hms hback => ((shutting_of_close w).steps hms).ended hback
  first := by
    intro a rest f hactive
    have hstep : r.step (.invoke .closeLoads) =
        r.after (some .nothing) (r.loader.drive [.abort r.loader.active]) := rfl
    rcases w.loading.drive_abort r.loader.active with
      ⟨hpast, -⟩ | ⟨past, b, left, x, k, l', e, hl, hpast, hx, he, hcon, hdrive⟩
    · exact absurd (hactive ▸ List.mem_cons_self ..) (hpast a (hactive ▸ List.mem_cons_self ..))
    · -- All the loads in the list are active, so the first of them is told.
      obtain rfl : past = [] := by
        cases past with
        | nil => rfl
        | cons c cs =>
          have hc : c ∈ r.loader.active := by
            rw [hl]
            exact List.mem_cons_self ..
          exact absurd hc (hpast c (List.mem_cons_self ..))
      obtain ⟨rfl, rfl⟩ := List.cons.inj (hactive.symm.trans hl)
      rw [hdrive] at hstep
      exact ⟨e, he, onlyTold_of_raise (.refl _) w.loading hx hcon
        (by simp [Frame.OfLoads, Frame.Within]) hstep f⟩
  later := by
    intro ms hms s outer f hs
    have w' : Watched ((r.step (.invoke .closeLoads)).steps ms) :=
      .of_reachable (stepped_of_move w (m := .invoke .closeLoads) trivial).watched
        (Reachable.start.steps ms fun _ m hm => hms m hm)
    exact step_raises hs (w'.frames s (by rw [hs]; exact List.mem_cons_self ..)) f

/-- What a slot holds is open, as long as only loads write to the slots of handles. -/
theorem open_of_slot (sh : r.loader.Shared) {h : HandleId} {handle : Handle}
    (hh : r.loader.handles.get? h = some handle) (type : String) :
    (handle.slotFor type).waiting.Nodup ∧ ∀ a ∈ (handle.slotFor type).waiting,
      ∃ x, r.loader.attempts.get? a = some x ∧ x.handle = h ∧ x.settled = false := by
  rcases sh h handle hh with fresh | spent
  · have queued : r.loader.Queued h (handle.slotFor type).waiting := by
      unfold Handle.slotFor
      split
      · exact fresh.onLoad
      · exact fresh.onError
    refine ⟨queued.nodup, fun a ha => ?_⟩
    obtain ⟨x, hx, hxh⟩ := (queued.mem_iff a).mp ha
    exact ⟨x, hx, hxh, fresh.unsettled a x hx hxh⟩
  · have hnil : (handle.slotFor type).waiting = [] := by
      unfold Handle.slotFor
      rw [spent.onLoad, spent.onError]
      split <;> rfl
    rw [hnil]
    exact ⟨List.nodup_nil, fun a ha => absurd ha List.not_mem_nil⟩

/-- A signal that reaches the first load of its slot, who raises. -/
theorem onlyTold_of_delivers (w : Watched r) (sh : r.loader.Shared) {h : HandleId} {type : String}
    (hd : r.Delivers h type m) {handle : Handle} (hh : r.loader.handles.get? h = some handle)
    {a : AttemptId} {rest : List AttemptId} (hw : (handle.slotFor type).waiting = a :: rest)
    (f : Fault) :
    OnlyTold r a (r.loader.signalFrom h type) ((r.step m).step (.raises f)) ∧
      ∀ b ∈ rest, b ∈ ((r.step m).step (.raises f)).loader.active := by
  obtain ⟨hnodup, hopen⟩ := open_of_slot sh hh type
  rw [hw] at hnodup hopen
  obtain ⟨answer, l, aside, hstep⟩ := step_of_delivers hd hh
  have loading := aside.loading w.loading
  obtain ⟨x, hx, -, hxs⟩ := hopen a (List.mem_cons_self ..)
  rw [← aside.attempts] at hx
  obtain ⟨k, hdone⟩ := loading.called a x hx
  obtain ⟨l', hcon, hs⟩ := loading.signal_open (by simp) hx hxs hdone
    (r.loader.signalFrom h type) (handle.slotFor type).foreign rest
  have hdrive : l.drive [.signal (handle.slotFor type) (r.loader.signalFrom h type)] =
      (l', .calling (.tell a k (r.loader.signalFrom h type))
        [.signal ⟨rest, (handle.slotFor type).foreign⟩ (r.loader.signalFrom h type)]) := by
    simp [Loader.drive, Loader.perform, hw, hs]
  rw [hdrive] at hstep
  have only := onlyTold_of_raise aside loading hx hcon (by simp [Frame.OfLoads, Frame.Within])
    hstep f
  refine ⟨only, fun b hb => (only.active b).mpr ⟨?_, ?_⟩⟩
  · obtain ⟨y, hy, -, hys⟩ := hopen b (List.mem_cons_of_mem a hb)
    exact w.loading.orderly.mem_active_of_unsettled hy hys
  · rintro rfl
    exact (List.nodup_cons.mp hnodup).1 hb

/-- What a signal has not reached when it is lost is cut off from its handle. -/
theorem cutOff_of_lost (w : Watched r) (sh : r.loader.Shared) {h : HandleId} {type : String}
    (hd : r.Delivers h type m) {handle : Handle} (hh : r.loader.handles.get? h = some handle)
    {a b : AttemptId} {rest : List AttemptId} (hw : (handle.slotFor type).waiting = a :: rest)
    (hb : b ∈ rest) (unheard : r.Unheard b) (f : Fault) :
    CutOff ((r.step m).step (.raises f)) b := by
  obtain ⟨hnodup, hopen⟩ := open_of_slot sh hh type
  rw [hw] at hnodup hopen
  have only := (onlyTold_of_delivers w sh hd hh hw f).1
  have leaves := hd.leavesSlots
  have w₁ := (stepped_of_move w leaves.ofLoads).watched
  obtain ⟨x, hx, hxh, -⟩ := hopen a (List.mem_cons_self ..)
  obtain ⟨y, hy, hyh, hys⟩ := hopen b (List.mem_cons_of_mem a hb)
  have hne : a ≠ b := by
    rintro rfl
    exact (List.nodup_cons.mp hnodup).1 hb
  refine
    { watched := (stepped_of_move w₁ (m := .raises f) trivial).watched
      shared := shared_of_move w₁ (shared_of_move w sh leaves) (m := .raises f) trivial
      waiting := ⟨y, ?_, hys, a, { x with settled := true }, ?_, hxh.trans hyh.symm, rfl⟩
      unheard := ?_ }
  · rw [only.attempts, Table.get?_update, if_neg hne]
    exact hy
  · rw [only.attempts, Table.get?_update, if_pos rfl, hx]
    rfl
  · intro s hs
    rw [only.suspended] at hs
    exact unheard s hs

theorem Watched.signalling (w : Watched r) (sh : r.loader.Shared) : Signalling r where
  all := by
    intro m h type handle hd hh ms hms hback a ha
    have leaves := hd.leavesSlots
    obtain ⟨hnodup, hopen⟩ := open_of_slot sh hh type
    obtain ⟨answer, l, aside, hstep⟩ := step_of_delivers hd hh
    have spreads : Spreads r.suspended h (r.loader.signalFrom h type)
        (handle.slotFor type).waiting (r.step m) := by
      rw [hstep]
      refine spreads_of_signal (aside.loading w.loading) rfl hnodup ?_ (fun a ha => .inl ha) _
        answer
      rw [aside.attempts]
      exact hopen
    obtain ⟨w', spreads'⟩ := spreads.steps (stepped_of_move w leaves.ofLoads).watched
      (shared_of_move w sh leaves) hms
    obtain ⟨k, hk⟩ := spreads'.told hback a ha
    exact ⟨⟨k, hk⟩, w'.ended_of_told hk⟩
  first := fun m h type handle a rest f hd hh hw => onlyTold_of_delivers w sh hd hh hw f
  lost := fun m h type handle a rest f hd hh hw b hb unheard ms hms =>
    (cutOff_of_lost w sh hd hh hw hb unheard f).lasts hms

end Reached

/--
Loads over a registry whose users may raise. A shutdown and a signal reach all their loads, unless
one of those that they tell raises themselves; then the loads behind it stay active. The sink
refuses no count.
-/
theorem reached_unless_raised {policy : Policy} {registry : Registry} {sink : Metrics.Sink}
    {r : Run} (hempty : registry.handles = []) (hs : sink.Steady)
    (hr : Run.Reachable (fun _ m => m.OfLoads) { loader := .ofLoads policy registry sink } r) :
    Closing r ∧
      (Run.Reachable (fun _ m => m.LeavesSlots) { loader := .ofLoads policy registry sink } r →
        Signalling r) := by
  have opened := Watched.opened policy hempty hs
  refine ⟨(opened.of_reachable hr).closing, fun hleaves => ?_⟩
  obtain ⟨w, sh⟩ := shared_of_reachable opened (shared_opened _ _ _) hleaves
  exact w.signalling sh

/--
Two loads of one handle, and a shutdown. The first that is told asks for another shutdown, which
tells the other load; whoever is told there raises, and still both loads are over in the end.
-/
theorem reached_though_raised_inside :
    let opened : Run := { loader := .ofLoads {} (.document [] 0) .silent }
    let r := opened.steps
      [.invoke (.load (.name "a") "/both.css" (.call 1)),
        .invoke (.load (.name "b") "/both.css" (.call 2))]
    let ms : List Move := [.invoke .closeLoads, .raises (.foreign "boom"), .returns]
    Closing r ∧ Signalling r ∧ r.loader.active = [0, 1] ∧
      (r.step (.invoke .closeLoads)).Admits (Calm r.suspended) ms ∧
      ((r.step (.invoke .closeLoads)).steps ms).suspended = r.suspended ∧
      ((r.step (.invoke .closeLoads)).steps ms).loader.active = [] := by
  intro opened r ms
  have hleaves : Reachable (fun _ m => m.LeavesSlots) opened r := by
    refine Reachable.start.steps _ fun s m hm => ?_
    simp only [List.mem_cons, List.not_mem_nil, or_false] at hm
    rcases hm with rfl | rfl <;> trivial
  have hloads : Reachable (fun _ m => m.OfLoads) opened r := by
    refine Reachable.start.steps _ fun s m hm => ?_
    simp only [List.mem_cons, List.not_mem_nil, or_false] at hm
    rcases hm with rfl | rfl <;> trivial
  obtain ⟨closing, signalling⟩ := reached_unless_raised rfl Metrics.Sink.steady_silent hloads
  have deep : ((r.step (.invoke .closeLoads)).step (.invoke .closeLoads)).suspended.length = 2 := by
    decide
  refine ⟨closing, signalling hleaves, by decide, ⟨⟨trivial, fun _ _ h => nomatch h⟩,
    ⟨trivial, fun f s _ hs => ?_⟩, ⟨trivial, fun _ _ h => nomatch h⟩, trivial⟩, by decide,
    by decide⟩
  rw [hs] at deep
  cases deep

/--
Two loads of one handle that are told by the same user, who raises. After a shutdown, and after a
signal of the handle, only one of them is over; the other is active, and its watchdog is armed.
-/
theorem active_after_raise :
    let opened : Run := { loader := .ofLoads {} (.document [] 0) .silent }
    let r := opened.steps
      [.invoke (.load (.name "a") "/both.css" (.call 1)),
        .invoke (.load (.name "b") "/both.css" (.call 1))]
    let closed := r.steps [.invoke .closeLoads, .raises (.foreign "boom")]
    let signalled := r.steps [.invoke (.dispatch 0 "load"), .raises (.foreign "boom")]
    r.loader.active = [0, 1] ∧ r.suspended = [] ∧
      ((r.loader.handles.get? 0).map fun h => (h.slotFor "load").waiting) = some [1, 0] ∧
      closed.suspended = [] ∧ closed.loader.active = [1] ∧
      (closed.loader.watchdogs.map (·.attempt)) = [1] ∧
      signalled.suspended = [] ∧ signalled.loader.active = [0] ∧
      (signalled.loader.watchdogs.map (·.attempt)) = [0] ∧
      signalled.calls = [.tell 1 1 (r.loader.signalFrom 0 "load")] := by
  decide

end Run

end SingleFlight
