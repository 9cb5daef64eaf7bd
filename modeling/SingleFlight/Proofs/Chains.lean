/-
SingleFlight.Proofs.Chains — a signal that reaches several loads.

Loads that wait for one handle form a chain in its slots: the newest stands in
front, and behind the oldest stands whoever observed the handle before. A signal
goes along the chain of one slot. Each load in it ends, empties the slots again,
leaves the registry again if the signal is no success, and then tells its user;
the next one hears of the signal when that user returns. So the whole chain is
told if everybody returns, each load once and in this order.

* `Lined.aside`, `Lined.told`, `Lined.joined`, `Run.queue_of_move` — loads over a
  registry keep the line of a handle.
* `Loader.handles_endLoads`, `Loader.registry_endLoads` — what it comes to when
  loads of one handle end.
* `Run.steps_signal` — a signal goes along a chain of any length.
* `Run.chain_told` — the result, for all the loads that a handle has got.
-/
import Mathlib.Data.List.Induction
import SingleFlight.Proofs.Endings
import SingleFlight.Proofs.Histories
import SingleFlight.Proofs.Lines

namespace SingleFlight

namespace Loader

variable {l₀ l l' : Loader} {h : HandleId} {x : Attempt}

/-! ## §1 The line of a handle, in loads over a registry -/

/-- Who stands behind the loads in the slot of a handle. -/
def behind (l : Loader) (h : HandleId) (type : String) : Option CallbackId :=
  (l.handles.get? h).bind fun x => (x.slotFor type).foreign

/-- The line of a handle, behind which nobody comes or goes. -/
abbrev Queue (l₀ l : Loader) (h : HandleId) : Prop :=
  l₀.Lined (fun type foreign => foreign = l₀.behind h type) l h

namespace Lined

/-- Nobody stands behind the loads of a handle that is still to be made. -/
theorem behind_of_absent {P : String → Option CallbackId → Prop} (i : l₀.Lined P l h)
    (hh : l.handles.get? h = none) (type : String) : l₀.behind h type = none := by
  cases hx : l₀.handles.get? h with
  | none => simp [behind, hx]
  | some x =>
    obtain ⟨y, hy⟩ := i.grown h x hx
    rw [hh] at hy
    cases hy

theorem aside (i : l₀.Queue l h) (aside : l.Aside l') : l₀.Queue l' h := by
  refine i.keep aside.attempts (fun k x hk => ?_) fun y hy => ?_
  · obtain ⟨y, hy, -⟩ := aside.kept k x hk
    exact ⟨y, hy⟩
  · cases hh : l.handles.get? h with
    | some x =>
      obtain ⟨y', hy', hload, herror, -⟩ := aside.kept h x hh
      rw [hy] at hy'
      cases hy'
      exact .inl ⟨x, rfl, Handle.slotFor_congr hload herror⟩
    | none =>
      obtain ⟨hload, herror⟩ := aside.added h y hy hh
      refine .inr ⟨.inl rfl, Handle.slotFor_unset (fun type => ?_) hload herror⟩
      exact (i.behind_of_absent hh type).symm

theorem told {Q : AttemptId → LoadEvent → Prop} {p : Loader × Progress} (i : l₀.Queue l h)
    (loading : l.Loading none) (hp : Told Q l p) : l₀.Queue p.1 h := by
  cases hp with
  | finished => exact i
  | observed => exact i
  | told _ ha hx _ hcon _ =>
    have ended := loading.concluded (by simp) ha hcon
    exact i.conclude ha hx ended.attempts ended.handles

/-- A load begins to wait for a handle. -/
theorem joined (i : l₀.Queue l h) (hat : l'.attempts = l.attempts.add x)
    (joined : l.Joined x.handle l') : l₀.Queue l' h := by
  generalize hk : x.handle = k at joined
  cases joined with
  | @created made _ hload herror handles =>
    rw [Table.update_add_size] at handles
    refine i.begin hat (by rw [handles]; exact .add _) (fun _ => ?_) (fun hne => ?_) ?_
    · exact ⟨_, by rw [handles, hk, Table.get?_add_size]⟩
    · exact .add handles fun he => absurd (hk.trans he) hne
    · rintro rfl - y hy
      have hnone : l.handles.get? x.handle = none := by rw [hk, Table.get?_size]
      rw [handles, hk, Table.get?_add_size] at hy
      cases hy
      refine ⟨made, rfl, .inr ⟨hnone, Handle.slotFor_unset (fun type => ?_) hload herror⟩⟩
      exact (i.behind_of_absent hnone type).symm
  | @adopted _ handle _ hh hl handles =>
    subst hk
    refine i.begin hat (by rw [handles]; exact .update _ _) (fun _ => ?_) (fun hne => ?_) ?_
    · exact ⟨_, by rw [handles, Table.get?_update_self hh]⟩
    · exact .update handles fun he => absurd he hne
    · rintro rfl - y hy
      rw [handles, Table.get?_update_self hh] at hy
      cases hy
      exact ⟨handle, rfl, .inl hh⟩

/-- A load begins on a handle that is complete, and ends at once. -/
theorem passed (i : l₀.Queue l h)
    (hat : l'.attempts = l.attempts.add { x with settled := true })
    (hh : l'.handles = l.handles.update x.handle (·.release)) : l₀.Queue l' h := by
  refine i.begin hat (by rw [hh]; exact .update _ _) nofun (fun hne => ?_) fun _ => nofun
  exact .update hh fun he => absurd he hne

end Lined

/-! ## §2 The loads of one handle end -/

section Ends

variable {as : List AttemptId} {type : String}

/-- The last of several loads of one handle. -/
theorem endLoads_concat {bs : List AttemptId} {a : AttemptId} (type : String)
    (hon : ∀ b ∈ bs ++ [a], l.On h b) :
    ∃ x, (l.endLoads type bs).attempts.get? a = some x ∧ x.handle = h ∧
      l.endLoads type (bs ++ [a]) = (l.endLoads type bs).endLoad type a := by
  obtain ⟨x, hx, hxh⟩ := hon a (List.mem_append_right _ (List.mem_singleton.mpr rfl))
  refine ⟨_, by rw [get?_endLoads, hx]; rfl, ?_, List.foldl_append⟩
  split
  · exact hxh
  · exact hxh

/-- A handle is released by the first of its loads that ends. -/
theorem handles_endLoads (hon : ∀ a ∈ as, l.On h a) :
    (l.endLoads type as).handles =
      if as = [] then l.handles else l.handles.update h (·.release) := by
  induction as using List.reverseRecOn with
  | nil => rfl
  | append_singleton bs a ih =>
    obtain ⟨x, hx, rfl, hlast⟩ := endLoads_concat type hon
    rw [hlast, endLoad_of_some hx, if_neg (by simp)]
    show (l.endLoads type bs).handles.update x.handle _ = _
    rw [ih fun b hb => hon b (List.mem_append_left _ hb)]
    split
    · rfl
    · rw [Table.update_update]
      rfl

/-- And it leaves the registry with the first of its loads that does not end well. -/
theorem registry_endLoads (tidy : l.registry.Tidy l.handles) {handle : Handle}
    (hh : l.handles.get? h = some handle) (hon : ∀ a ∈ as, l.On h a) :
    (l.endLoads type as).registry =
      if as = [] ∨ type = "load" then l.registry else l.registry.remove h handle.url := by
  induction as using List.reverseRecOn with
  | nil => simp [endLoads]
  | append_singleton bs a ih =>
    have before : ∀ b ∈ bs, l.On h b := fun b hb => hon b (List.mem_append_left _ hb)
    obtain ⟨x, hx, rfl, hlast⟩ := endLoads_concat type hon
    obtain ⟨y, hy, hurl⟩ : ∃ y, (l.endLoads type bs).handles.get? x.handle = some y ∧
        y.url = handle.url := by
      rw [handles_endLoads before]
      split
      · exact ⟨handle, hh, rfl⟩
      · exact ⟨handle.release, Table.get?_update_self hh _, rfl⟩
    rw [hlast, endLoad_of_some hx]
    show (l.endLoads type bs).registryAfter x.handle { type } = _
    rw [registryAfter_eq, hy, Option.elim_some, hurl, ih before]
    by_cases ht : type = "load"
    · simp [LoadEvent.isLoad, ht]
    · by_cases hbs : bs = []
      · simp [LoadEvent.isLoad, ht, hbs]
      · -- The handle is out already.
        have gone := tidy.not_mem_remove ⟨handle, hh, rfl⟩
        simp [LoadEvent.isLoad, ht, hbs, Registry.remove_of_not_mem gone]

end Ends

end Loader

namespace Run

variable {r : Run} {m : Move} {l₀ : Loader} {h : HandleId}

theorem queue_of_move (w : Watched r) (hm : m.OfLoads) (hl : r.LeavesLine (fun _ => False) h m)
    (i : l₀.Queue r.loader h) : l₀.Queue (r.step m).loader h := by
  cases turn_of_move w.loading hm with
  | load chunk url k =>
    rcases step_load w.loading chunk url k with
      ⟨l, k', hstep, -, hat, joined⟩ | ⟨l, k', e, l', hstep, -, hat, hh, -, -, ended⟩
    · rw [hstep]
      exact i.joined hat joined
    · rw [hstep]
      refine i.passed ?_ (ended.handles.trans (by rw [hh]))
      rw [after_loader, ended.attempts, hat, Table.update_add_size]
  | planted handle => exact hl.plant (fun _ _ => False.elim) i
  | assigned k onLoad onError loading => exact hl.assign (fun _ _ => False.elim) i
  | aside hstep aside =>
    rw [hstep]
    exact i.aside aside
  | worked hstep origin aside =>
    have loading := aside.loading w.loading
    rw [hstep, after_loader]
    exact (i.aside aside).told loading (loading.told_drive origin.ofLoads)
  | resumed hs =>
    rename_i s outer
    have frames : ∀ f ∈ s.rest, f.OfLoads := w.frames s (by rw [hs]; exact List.mem_cons_self ..)
    rw [step_returns hs, after_loader]
    exact i.told w.loading (w.loading.told_drive frames)
  | raised f hs =>
    rename_i s outer
    have frames : ∀ f ∈ s.rest, f.OfLoads := w.frames s (by rw [hs]; exact List.mem_cons_self ..)
    rw [step_raises hs frames]
    exact i

/-! ## §3 A signal on its way -/

/-- A signal goes along a chain of loads, and each of those who are told returns. -/
theorem steps_signal (e : LoadEvent) (foreign : Option CallbackId) (answer : Option Answer) :
    ∀ (waiting : List AttemptId) (r : Run) {l : Loader}, l.Loading none → l.AllOpen waiting →
      ∃ calls log, List.Forall₂ (fun a c => l.Tells a e c) waiting calls ∧
        (r.after answer (l.drive [.signal ⟨waiting, foreign⟩ e])).steps
            (List.replicate (waiting.length + foreign.toList.length) .returns) =
          { r with
            loader := { l.endLoads e.type waiting with log }
            calls := r.calls ++ calls ++ foreign.toList.map (.observe · e)
            answers := r.answers ++ answer.toList }
  | [], r, l, _, _ => by
    refine ⟨[], l.log, .nil, ?_⟩
    cases foreign with
    | none => simp [steps, Loader.drive, Loader.perform, Loader.signal, after, Loader.endLoads]
    | some k =>
      simp [steps, step, Loader.drive, Loader.perform, Loader.signal, after, Loader.endLoads]
  | a :: rest, r, l, loading, o => by
    obtain ⟨k, log₁, tells, loading', o', hs⟩ := loading.tell_first o e
    have hdrive : l.drive [.signal ⟨a :: rest, foreign⟩ e] =
        ({ l.endLoad e.type a with log := log₁ },
          .calling (.tell a k e) [.signal ⟨rest, foreign⟩ e]) := by
      simp [Loader.drive, Loader.perform, hs]
    -- The first load has been told, and the signal goes on when its user returns.
    obtain ⟨calls, log, told, hsteps⟩ := steps_signal e foreign answer rest
      { r with
        loader := { l.endLoad e.type a with log := log₁ }
        calls := r.calls ++ [.tell a k e] } loading' o'
    refine ⟨.tell a k e :: calls, log, .cons tells (told.imp fun b c hbc => ?_), ?_⟩
    · have hbc' : (l.endLoad e.type a).Tells b e c := hbc
      exact hbc'.of_endLoad
    · rw [hdrive, List.length_cons, Nat.add_right_comm, List.replicate_succ, steps_cons,
        step_returns_after, hsteps]
      simp [Loader.endLoads_cons, Loader.endLoads_log]

/-! ## §4 All loads of a handle -/

/--
A signal of a handle went along a chain of loads and past them to the observer behind them. It is
about this handle, these loads and this slot, and about nothing else.
-/
structure Unrolled (r : Run) (h : HandleId) (type : String) (loads : List AttemptId)
    (foreign : Option CallbackId) (r' : Run) : Prop where
  /-- Each load was told once, in this order, and then the observer behind them. -/
  calls : ∃ calls,
    List.Forall₂ (fun a c => r.loader.Tells a (r.loader.signalFrom h type) c) loads calls ∧
      r'.calls = r.calls ++ calls ++ foreign.toList.map (.observe · (r.loader.signalFrom h type))
  suspended : r'.suspended = r.suspended
  attempts : ∀ a, r'.loader.attempts.get? a =
    (r.loader.attempts.get? a).map fun x => if a ∈ loads then { x with settled := true } else x
  active : r'.loader.active = r.loader.active.filter (· ∉ loads)
  watchdogs : r'.loader.watchdogs = r.loader.watchdogs.filter (·.attempt ∉ loads)
  handles : r'.loader.handles = r.loader.handles.update h (·.release)
  freed : ∃ x, r'.loader.handles.get? h = some x ∧ x.onLoad = {} ∧ x.onError = {} ∧
    x.loading = false
  registry : ∃ x, r.loader.handles.get? h = some x ∧ r'.loader.registry =
    if type = "load" then r.loader.registry else r.loader.registry.remove h x.url
  registered : h ∈ r'.loader.registry.handles ↔
    h ∈ r.loader.registry.handles ∧ type = "load"
  counted : r'.loader.sink = (Loader.countedEnd · type)^[loads.length] r.loader.sink
  tallied : ∀ t, r.loader.sink = .tally t → ∃ t', r'.loader.sink = .tally t' ∧ ∀ outcome,
    t'.get Loader.outcomesTotal [("outcome", outcome)] =
      t.get Loader.outcomesTotal [("outcome", outcome)] +
        if outcome = type then (loads.length : Int) else 0

/-- A tally of several ends. -/
theorem get_countedEnd (type : String) (n : Nat) (t : Metrics.Tally) :
    ∃ t', (Loader.countedEnd · type)^[n] (.tally t) = .tally t' ∧ ∀ outcome,
      t'.get Loader.outcomesTotal [("outcome", outcome)] =
        t.get Loader.outcomesTotal [("outcome", outcome)] +
          if outcome = type then (n : Int) else 0 := by
  induction n generalizing t with
  | zero => exact ⟨t, rfl, fun outcome => by simp⟩
  | succ n ih =>
    obtain ⟨t', ht, hget⟩ := ih (t.add Loader.outcomesTotal 1 [("outcome", type)])
    refine ⟨t', by rw [Function.iterate_succ_apply]; exact ht, fun outcome => ?_⟩
    rw [hget, Metrics.Tally.get_add]
    by_cases ho : outcome = type
    · simp only [ho, and_self, if_true]
      omega
    · simp [ho]

section Reached

variable {r₀ : Run}

/-- The loads that a handle has got since wait, as long as none of its loads has ended. -/
theorem allOpen_of_together (together : l₀.Together r.loader h) :
    r.loader.AllOpen (l₀.loadsSince r.loader h) := by
  refine ⟨l₀.nodup_loadsSince r.loader h, fun a ha => ?_⟩
  obtain ⟨hle, x, hx, hxh⟩ := Loader.mem_loadsSince.mp ha
  refine ⟨x, hx, ?_⟩
  rw [← Bool.not_eq_true]
  intro hs
  obtain ⟨x₀, hx₀, -⟩ := together a x hx hxh hs
  exact absurd (Table.lt_size_iff.mpr ⟨x₀, hx₀⟩) (Nat.not_lt.mpr hle)

theorem queue_of_reachable (w : Watched r₀)
    (clear : ∀ x type, r₀.loader.handles.get? h = some x → (x.slotFor type).waiting = [])
    (hr : Reachable (fun r m => m.OfLoads ∧ r.LeavesLine (fun _ => False) h m) r₀ r) :
    Watched r ∧ r₀.loader.Queue r.loader h := by
  induction hr with
  | start =>
    have none : r₀.loader.loadsSince r₀.loader h = [] := by
      refine List.eq_nil_iff_forall_not_mem.mpr fun a ha => ?_
      obtain ⟨hle, x, hx, -⟩ := Loader.mem_loadsSince.mp ha
      exact absurd (Table.lt_size_iff.mpr ⟨x, hx⟩) (Nat.not_lt.mpr hle)
    refine ⟨w, fun a x hx _ => w.loading.placed a x hx, Nat.le_refl _, .refl _, .refl,
      fun _ x type hx => ⟨(clear x type hx).trans none.symm, ?_⟩⟩
    simp [Loader.behind, hx]
  | step _ hm ih =>
    exact ⟨(stepped_of_move ih.1 hm.1).watched, queue_of_move ih.1 hm.1 hm.2 ih.2⟩

/-- A signal of a handle whose loads all wait. -/
theorem unrolled_of_queue (w : Watched r) (i : l₀.Queue r.loader h)
    (together : l₀.Together r.loader h) (hsome : l₀.loadsSince r.loader h ≠ [])
    (type : String) :
    Unrolled r h type (l₀.loadsSince r.loader h) (l₀.behind h type)
      ((r.step (.invoke (.dispatch h type))).steps (List.replicate
        ((l₀.loadsSince r.loader h).length + (l₀.behind h type).toList.length) .returns)) := by
  have hon : ∀ a ∈ l₀.loadsSince r.loader h, r.loader.On h a := fun a ha =>
    (Loader.mem_loadsSince.mp ha).2
  have has : ∀ a ∈ l₀.loadsSince r.loader h, ∃ x, r.loader.attempts.get? a = some x := by
    intro a ha
    obtain ⟨x, hx, -⟩ := hon a ha
    exact ⟨x, hx⟩
  obtain ⟨handle, hh⟩ : ∃ handle, r.loader.handles.get? h = some handle := by
    obtain ⟨a, ha⟩ := List.exists_mem_of_ne_nil _ hsome
    obtain ⟨x, hx, rfl⟩ := hon a ha
    exact w.loading.placed a x hx
  have slot : handle.slotFor type = ⟨l₀.loadsSince r.loader h, l₀.behind h type⟩ := by
    obtain ⟨hw, hf⟩ := i.slots together handle type hh
    rw [← hw, ← hf]
  have hstep : r.step (.invoke (.dispatch h type)) = r.after (some .nothing)
      (r.loader.drive [.signal ⟨l₀.loadsSince r.loader h, l₀.behind h type⟩
        (r.loader.signalFrom h type)]) := by
    simp [step, Loader.invoke, Loader.dispatch, hh, slot]
  obtain ⟨calls, log, told, hsteps⟩ := steps_signal (r.loader.signalFrom h type)
    (l₀.behind h type) (some .nothing) (l₀.loadsSince r.loader h) r w.loading
    (allOpen_of_together together)
  have ended : (r.loader.endLoads type (l₀.loadsSince r.loader h)).handles =
      r.loader.handles.update h (·.release) := by
    rw [Loader.handles_endLoads hon, if_neg hsome]
  have registry : (r.loader.endLoads type (l₀.loadsSince r.loader h)).registry =
      if type = "load" then r.loader.registry else r.loader.registry.remove h handle.url := by
    rw [Loader.registry_endLoads w.loading.tidy hh hon]
    simp only [hsome, false_or]
  have counted := Loader.sink_endLoads has type
  rw [hstep, hsteps]
  constructor
  · exact ⟨calls, told, rfl⟩
  · rfl
  · exact r.loader.get?_endLoads type _
  · exact Loader.active_endLoads has type
  · exact Loader.watchdogs_endLoads has type
  · exact ended
  · refine ⟨handle.release, ?_, rfl, rfl, rfl⟩
    exact (congrArg (·.get? h) ended).trans (Table.get?_update_self hh _)
  · exact ⟨handle, hh, registry⟩
  · show h ∈ (r.loader.endLoads type (l₀.loadsSince r.loader h)).registry.handles ↔ _
    rw [registry]
    split
    · rename_i ht
      exact ⟨fun hm => ⟨hm, ht⟩, fun hm => hm.1⟩
    · rename_i ht
      refine ⟨fun hm => absurd hm ?_, fun hm => absurd hm.2 ht⟩
      exact w.loading.tidy.not_mem_remove ⟨handle, hh, rfl⟩
  · exact counted
  · intro t ht
    obtain ⟨t', ht', hget⟩ := get_countedEnd type (l₀.loadsSince r.loader h).length t
    refine ⟨t', ?_, hget⟩
    rw [← ht', ← ht]
    exact counted

end Reached

/--
A handle may have observers of its own, but no loads stand in its slots. Then it gets loads, any
number of them, none of which has ended when the handle signals; and everybody who is called
returns. All the loads are told of the signal, the newest first, and after them the observer that
was in the same slot. The sink refuses no count.
-/
theorem chain_told {policy : Policy} {registry : Registry} {sink : Metrics.Sink} {r₀ r : Run}
    {h : HandleId} (hempty : registry.handles = []) (hs : sink.Steady)
    (hr₀ : Reachable (fun _ m => m.OfLoads) { loader := .ofLoads policy registry sink } r₀)
    (clear : ∀ x type, r₀.loader.handles.get? h = some x → (x.slotFor type).waiting = [])
    (hr : Reachable (fun r m => m.OfLoads ∧ r.LeavesLine (fun _ => False) h m) r₀ r)
    (together : r₀.loader.Together r.loader h)
    (hsome : r₀.loader.loadsSince r.loader h ≠ []) (type : String) :
    Unrolled r h type (r₀.loader.loadsSince r.loader h) (r₀.loader.behind h type)
      ((r.step (.invoke (.dispatch h type))).steps (List.replicate
        ((r₀.loader.loadsSince r.loader h).length +
          (r₀.loader.behind h type).toList.length) .returns)) := by
  have w₀ := (Watched.opened policy hempty hs).of_reachable hr₀
  obtain ⟨w, i⟩ := queue_of_reachable w₀ clear hr
  exact unrolled_of_queue w i together hsome type

/--
A handle in the document is still loading, with an observer for either outcome. Two chunks of its
address adopt it, and then it fails.
-/
theorem chain_told_of_two :
    let opened : Run := { loader := .ofLoads {} (.document [] 0) (.tally {}) }
    let planted : Handle :=
      { url := "/a.css"
        loading := true
        onLoad := { foreign := some 7 }
        onError := { foreign := some 8 } }
    let r₀ := opened.steps [.invoke (.plant planted)]
    let r := r₀.steps [.invoke (.load (.name "a") "/a.css" (.call 1)), .setClock 1,
      .invoke (.load (.name "b") "/a.css" (.call 2))]
    let r' := (r.step (.invoke (.dispatch 0 "error"))).steps [.returns, .returns, .returns]
    let e := r.loader.signalFrom 0 "error"
    Unrolled r 0 "error" [1, 0] (some 8) r' ∧ r'.calls = [.tell 1 2 e, .tell 0 1 e, .observe 8 e] ∧
      r.loader.registry.handles = [0] ∧ r'.loader.registry.handles = [] := by
  intro opened planted r₀ r r' e
  have hr₀ : Reachable (fun _ m => m.OfLoads) opened r₀ := by
    refine Reachable.start.steps _ fun s m hm => ?_
    obtain rfl := List.mem_singleton.mp hm
    trivial
  have hr : Reachable (fun r m => m.OfLoads ∧ r.LeavesLine (fun _ => False) 0 m) r₀ r := by
    refine Reachable.start.steps _ fun s m hm => ?_
    simp only [List.mem_cons, List.not_mem_nil, or_false] at hm
    rcases hm with rfl | rfl | rfl
    all_goals exact ⟨trivial, trivial⟩
  have clear : ∀ x type, r₀.loader.handles.get? 0 = some x → (x.slotFor type).waiting = [] := by
    intro x type hx
    cases hx
    unfold Handle.slotFor
    split <;> rfl
  have together : r₀.loader.Together r.loader 0 := by
    have rows : r.loader.attempts.rows = [{ chunk := .name "a", handle := 0, done := .call 1 },
        { chunk := .name "b", handle := 0, done := .call 2 }] := by decide
    intro a x hx _ hs
    unfold Table.get? at hx
    rw [rows] at hx
    rcases a with _ | _ | a
    · cases hx
      cases hs
    · cases hx
      cases hs
    · simp at hx
  have loads : r₀.loader.loadsSince r.loader 0 = [1, 0] := by decide
  have told := chain_told rfl (Metrics.Sink.steady_tally {}) hr₀ clear hr together (by simp [loads])
    "error"
  rw [loads] at told
  exact ⟨told, by decide, by decide, by decide⟩

end Run

end SingleFlight
