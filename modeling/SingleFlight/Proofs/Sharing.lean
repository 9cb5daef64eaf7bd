/-
SingleFlight.Proofs.Sharing — several loads that wait for one handle.

A handle tells its outcome to the loads in its slots, one after the other. After
the first of them the slots are empty, but the signal is on its way to the
others, and it reaches them all if nobody gets in its way. After a watchdog or a
settlement from outside the others stay active, with their own watchdogs armed,
but the handle cannot tell them any more.

* `Run.Passing` — the only moves that touch loads of a spent handle.
* `Run.Departed` — a load ends, and others stay as they are.
* `Run.CutOff` — a load that its handle cannot tell any more.
* `Run.Underway`, `Run.Spreads` — a signal on its way from load to load.
* `Run.sharing` — what it comes to.
-/
import SingleFlight.Proofs.Histories
import SingleFlight.Proofs.Shared

namespace SingleFlight

namespace Run

/-! ## §1 Loads that a move leaves as they are -/

/-- The move ends a load by its own watchdog, or from outside. -/
inductive Ends (r : Run) (a : AttemptId) (e : LoadEvent) : Move → Prop
  | fired {target : Float} {w : Watchdog} (hi : r.idle = true)
      (hw : r.loader.nextDue? target = some w) (ha : w.attempt = a)
      (he : r.loader.endSignal a "timeout" = e) : Ends r a e (.fire target)
  | settled {chunk : ChunkId} (ha : r.loader.activeFor? chunk = some a) :
      Ends r a e (.invoke (.settle chunk e))

/-- Some loads stay as they are, and what a move leaves to be done is not about them. -/
structure Spares (P : AttemptId → Prop) (r r' : Run) : Prop where
  attempts : ∀ a x, P a → r.loader.attempts.get? a = some x →
    r'.loader.attempts.get? a = some x
  suspended : r'.suspended = r.suspended ∨ ∃ s, r'.suspended = s :: r.suspended ∧
    ∀ f ∈ s.rest, f.Within fun a _ => ¬ P a

/-- Some loads stay as they are, unless the move is one of these. -/
inductive Passing (P : AttemptId → Prop) (r : Run) : Move → Prop
  | spared {m : Move} (h : Spares P r (r.step m)) : Passing P r m
  | ends {m : Move} {a : AttemptId} {e : LoadEvent} (ha : P a) (h : Ends r a e m) :
      Passing P r m
  | closed : Passing P r (.invoke .closeLoads)
  | resumed {s : Suspension} {outer : List Suspension} (hs : r.suspended = s :: outer) :
      Passing P r .returns
  | raised (f : Fault) {s : Suspension} {outer : List Suspension}
      (hs : r.suspended = s :: outer) : Passing P r (.raises f)

section Passing

variable {r r' : Run} {m : Move} {P : AttemptId → Prop}

theorem Spares.still (hat : ∀ a x, r.loader.attempts.get? a = some x →
      r'.loader.attempts.get? a = some x)
    (hs : r'.suspended = r.suspended) : Spares P r r' where
  attempts := fun a x _ hx => hat a x hx
  suspended := .inl hs

/-- Work that is not about some loads, wherever it stops. -/
theorem Spares.work {l : Loader} (loading : l.Loading none)
    (hat : l.attempts = r.loader.attempts) {answer : Option Answer} {p : Loader × Progress}
    (hp : Loader.Told (fun a _ => ¬ P a) l p) : Spares P r (r.after answer p) := by
  cases hp with
  | finished =>
    refine .still (fun a x hx => ?_) rfl
    show l.attempts.get? a = some x
    rw [hat]
    exact hx
  | observed k e hrest =>
    refine ⟨fun a x _ hx => ?_, .inr ⟨_, rfl, hrest⟩⟩
    show l.attempts.get? a = some x
    rw [hat]
    exact hx
  | @told b y k e l' rest hq hb _ _ hcon hrest =>
    have ended := loading.concluded (by simp) hb hcon
    refine ⟨fun a x ha hx => ?_, .inr ⟨_, rfl, hrest⟩⟩
    have hne : b ≠ a := by
      rintro rfl
      exact hq ha
    show l'.attempts.get? a = some x
    rw [ended.other hne, hat]
    exact hx

/-- A load that begins is none of those that were there before. -/
theorem Spares.load (w : Watched r) (chunk : ChunkId) (url : String) (k : CallbackId) :
    Spares P r (r.step (.invoke (.load chunk url (.call k)))) := by
  have old : ∀ {l : Loader} {x : Attempt}, l.attempts = r.loader.attempts.add x →
      ∀ a y, r.loader.attempts.get? a = some y →
        a ≠ r.loader.attempts.size ∧ l.attempts.get? a = some y := by
    intro l x hat a y hy
    refine ⟨Table.ne_size_of_get? hy, ?_⟩
    rw [hat]
    exact Table.get?_add_of_some hy x
  rcases step_load w.loading chunk url k with
    ⟨l, h, hstep, -, hat, -⟩ | ⟨l, h, e, l', hstep, -, hat, -, -, -, ended⟩
  · rw [hstep]
    exact .still (fun a x hx => (old hat a x hx).2) rfl
  · rw [hstep]
    refine ⟨fun a x _ hx => ?_, .inr ⟨_, rfl, ?_⟩⟩
    · obtain ⟨hne, hx'⟩ := old hat a x hx
      show l'.attempts.get? a = some x
      rw [ended.other fun e => hne e.symm]
      exact hx'
    · intro f hf
      cases List.mem_singleton.mp hf
      exact fun a ha => absurd ha List.not_mem_nil

/-- A load of a spent handle is in no slot of any handle. -/
theorem not_mem_slot {l : Loader} (sh : l.Shared) {a : AttemptId} {x : Attempt}
    (ha : l.attempts.get? a = some x) (parted : l.Parted x.handle) {h : HandleId}
    {handle : Handle} (hh : l.handles.get? h = some handle) (type : String) :
    a ∉ (handle.slotFor type).waiting := by
  intro hm
  rcases sh h handle hh with fresh | spent
  · have hon : l.On h a := by
      unfold Handle.slotFor at hm
      split at hm
      · exact (fresh.onLoad.mem_iff a).mp hm
      · exact (fresh.onError.mem_iff a).mp hm
    obtain ⟨y, hy, rfl⟩ := hon
    rw [ha] at hy
    cases hy
    exact fresh.not_parted parted
  · unfold Handle.slotFor at hm
    rw [spent.onLoad, spent.onError] at hm
    split at hm <;> exact absurd hm List.not_mem_nil

theorem passing_of_move (w : Watched r) (sh : r.loader.Shared) (hm : m.LeavesSlots)
    (cut : ∀ a, P a → ∃ x, r.loader.attempts.get? a = some x ∧ r.loader.Parted x.handle) :
    Passing P r m := by
  cases turn_of_move w.loading hm.ofLoads with
  | load chunk url k => exact .spared (.load w chunk url k)
  | planted handle => exact .spared (.still (fun _ _ hx => hx) rfl)
  | assigned => exact hm.elim
  | aside hstep aside =>
    refine .spared ?_
    rw [hstep]
    refine .still (fun a x hx => ?_) rfl
    rw [after_loader, aside.attempts]
    exact hx
  | worked hstep origin aside =>
    rename_i l answer work
    have spared : (∀ f ∈ work, f.Within fun a _ => ¬ P a) → Passing P r m := by
      intro hf
      refine .spared ?_
      rw [hstep]
      have loading := aside.loading w.loading
      exact .work loading aside.attempts (loading.told_drive hf)
    cases origin with
    | @signalled _ h type handle e hd hh he =>
      refine spared fun f hf => ?_
      cases List.mem_singleton.mp hf
      intro a hmem ha
      obtain ⟨x, hx, parted⟩ := cut a ha
      exact not_mem_slot sh hx parted hh type hmem
    | @settled chunk e a ha =>
      by_cases hP : P a
      · exact .ends hP (.settled ha)
      · refine spared fun f hf => ?_
        cases List.mem_singleton.mp hf
        intro b hb
        cases List.mem_singleton.mp hb
        exact hP
    | @fired target wd hi hw =>
      by_cases hP : P wd.attempt
      · exact .ends hP (.fired hi hw rfl rfl)
      · refine spared fun f hf => ?_
        cases List.mem_singleton.mp hf
        intro b hb
        cases List.mem_singleton.mp hb
        exact hP
    | closed => exact .closed
    | notified s e => exact hm.elim
  | resumed hs => exact .resumed hs
  | raised f hs => exact .raised f hs

end Passing

/-! ## §2 Loads that end apart from the others of their handle -/

/-- A load has ended and was told, and the others are as they were, with their watchdogs. -/
structure Departed (r : Run) (a : AttemptId) (e : LoadEvent) (r' : Run) : Prop where
  told : ∃ k answer, r'.calls = r.calls ++ [.tell a k e] ∧
    r'.suspended = ⟨.tell a k e, [.signal {} e], answer⟩ :: r.suspended
  active : r'.loader.active = r.loader.active.filter (· ≠ a)
  watchdogs : r'.loader.watchdogs = r.loader.watchdogs.filter (·.attempt ≠ a)
  attempts : r'.loader.attempts = r.loader.attempts.update a ({ · with settled := true })

/-- No work that is under way will tell the load anything but that it is aborted. -/
def Unheard (r : Run) (b : AttemptId) : Prop :=
  ∀ s ∈ r.suspended, ∀ f ∈ s.rest, f.Within fun a e => a = b → e.type = "abort"

/-- A shutdown ends the load. -/
structure Aborts (r : Run) (b : AttemptId) (m : Move) : Prop where
  closing : m = .invoke .closeLoads ∨ m = .returns
  told : ∃ k e, e.type = "abort" ∧ (r.step m).calls = r.calls ++ [.tell b k e]

/-- The load is still active after some moves, or one of them has ended it without its handle. -/
def Lasts (r : Run) (b : AttemptId) (ms : List Move) : Prop :=
  b ∈ (r.steps ms).loader.active ∨ ∃ pre m post, ms = pre ++ m :: post ∧
    ((∃ e, Ends (r.steps pre) b e m) ∨ Aborts (r.steps pre) b m)

/-- A load that is active, but that its handle cannot tell any more. -/
structure CutOff (r : Run) (b : AttemptId) : Prop where
  watched : Watched r
  shared : r.loader.Shared
  waiting : ∃ x, r.loader.attempts.get? b = some x ∧ x.settled = false ∧
    r.loader.Parted x.handle
  unheard : r.Unheard b

section Apart

variable {r : Run} {m : Move} {a b : AttemptId} {e : LoadEvent}

/-- A signal to one active load. -/
theorem departed_of_signal {l : Loader} (loading : l.Loading none)
    (hat : l.attempts = r.loader.attempts) (hac : l.active = r.loader.active)
    (hw : l.watchdogs = r.loader.watchdogs) (ha : a ∈ r.loader.active)
    (answer : Option Answer) (e : LoadEvent) :
    Departed r a e (r.after answer (l.drive [.signal { waiting := [a] } e])) := by
  obtain ⟨-, x, hx, hopen⟩ := (loading.orderly.active_iff a).mp (hac ▸ ha)
  obtain ⟨k, hd⟩ := loading.called a x hx
  obtain ⟨l', hcon, hs⟩ := loading.signal_open (by simp) hx hopen hd e none []
  have ended := loading.concluded (by simp) hx hcon
  have hdrive : l.drive [.signal { waiting := [a] } e] =
      (l', .calling (.tell a k e) [.signal {} e]) := by
    simp [Loader.drive, Loader.perform, hs]
  rw [hdrive]
  refine ⟨⟨k, answer, rfl, rfl⟩, ?_, ?_, ?_⟩
  · show l'.active = _
    rw [ended.active, hac]
  · show l'.watchdogs = _
    rw [ended.watchdogs, hw]
  · show l'.attempts = _
    rw [ended.attempts, hat]

theorem active_of_settle {l : Loader} {chunk : ChunkId} (ha : l.activeFor? chunk = some a) :
    a ∈ l.active :=
  List.mem_of_find?_eq_some ha

/-- A load that ends by its watchdog or from outside leaves the others alone. -/
theorem departed_of_ends (w : Watched r) (h : Ends r a e m) : Departed r a e (r.step m) := by
  cases h with
  | @fired target wd hi hw ha he =>
    subst ha he
    rw [step_fire w.loading hi hw]
    have aside : Loader.Aside r.loader { r.loader with now := wd.due } :=
      .beside rfl (.refl _) rfl rfl rfl rfl rfl rfl
    exact departed_of_signal (aside.loading w.loading) rfl rfl rfl (active_of_due w.loading hw)
      none _
  | settled ha =>
    rw [step_settle ha]
    exact departed_of_signal w.loading rfl rfl rfl (active_of_settle ha) _ e

/-- Work that can only abort a load either does that, or leaves it as it is. -/
theorem aborted_or_kept {l : Loader} (loading : l.Loading none) {p : Loader × Progress}
    (hp : Loader.Told (fun a e => a = b → e.type = "abort") l p) (hr : r.Unheard b)
    (answer : Option Answer) :
    (∃ k e, e.type = "abort" ∧ (r.after answer p).calls = r.calls ++ [.tell b k e]) ∨
      (∀ x, l.attempts.get? b = some x → p.1.attempts.get? b = some x) ∧
        (r.after answer p).Unheard b := by
  have push : ∀ {c : Call} {rest : List Frame} {l' : Loader},
      (∀ f ∈ rest, f.Within fun a e => a = b → e.type = "abort") →
        (r.after answer (l', .calling c rest)).Unheard b := by
    intro c rest l' hrest s hs
    rcases List.mem_cons.mp hs with rfl | hs
    · exact hrest
    · exact hr s hs
  cases hp with
  | finished => exact .inr ⟨fun _ hx => hx, hr⟩
  | observed k e hrest => exact .inr ⟨fun _ hx => hx, push hrest⟩
  | @told a x k e l' rest hq ha _ _ hcon hrest =>
    by_cases hab : a = b
    · subst hab
      exact .inl ⟨k, e, hq rfl, rfl⟩
    · have ended := loading.concluded (by simp) ha hcon
      refine .inr ⟨fun y hy => ?_, push hrest⟩
      show l'.attempts.get? b = some y
      rw [ended.other hab]
      exact hy

/-- What a move leaves to be done is not about a load that it spares. -/
theorem Unheard.spares {r' : Run} (hr : r.Unheard b) (spares : Spares (· = b) r r') :
    r'.Unheard b := by
  intro s hs
  rcases spares.suspended with hsame | ⟨s', hpush, hs'⟩
  · rw [hsame] at hs
    exact hr s hs
  · rw [hpush] at hs
    rcases List.mem_cons.mp hs with rfl | hs
    · intro f hf
      have hf' := hs' f hf
      cases f with
      | signal _ _ => exact fun a ha hab => absurd hab (hf' a ha)
      | abort _ => exact fun a ha e he hab => absurd hab (hf' a ha e he)
      | _ => exact hf'
    · exact hr s hs

/-- The innermost call is over, one way or the other. -/
theorem Unheard.outer {s : Suspension} {outer : List Suspension} (hr : r.Unheard b)
    (hs : r.suspended = s :: outer) : Unheard { r with suspended := outer } b :=
  fun s' hs' => hr s' (by rw [hs]; exact List.mem_cons_of_mem s hs')

/-- A load that a move leaves as it is stays cut off. -/
theorem CutOff.keep (c : CutOff r b) (hm : m.LeavesSlots)
    (hat : ∀ x, r.loader.attempts.get? b = some x →
      (r.step m).loader.attempts.get? b = some x)
    (unheard : (r.step m).Unheard b) : CutOff (r.step m) b := by
  obtain ⟨x, hx, hopen, parted⟩ := c.waiting
  exact
    { watched := (stepped_of_move c.watched hm.ofLoads).watched
      shared := shared_of_move c.watched c.shared hm
      waiting := ⟨x, hat x hx, hopen, parted.later (later_of_move c.watched hm.ofLoads)⟩
      unheard }

/-- A move ends a load that is cut off, by its watchdog, from outside or as a shutdown, or not. -/
theorem cutOff_of_move (c : CutOff r b) (hm : m.LeavesSlots) :
    CutOff (r.step m) b ∨ (∃ e, Ends r b e m) ∨ Aborts r b m := by
  have cut : ∀ a, a = b →
      ∃ x, r.loader.attempts.get? a = some x ∧ r.loader.Parted x.handle := by
    rintro a rfl
    obtain ⟨x, hx, -, parted⟩ := c.waiting
    exact ⟨x, hx, parted⟩
  cases passing_of_move c.watched c.shared hm cut with
  | spared spares =>
    exact .inl (c.keep hm (fun x hx => spares.attempts b x rfl hx) (c.unheard.spares spares))
  | ends ha hends =>
    subst ha
    exact .inr (.inl ⟨_, hends⟩)
  | closed =>
    have hstep : r.step (.invoke .closeLoads) =
        r.after (some .nothing) (r.loader.drive [.abort r.loader.active]) := rfl
    have within : ∀ f ∈ [Frame.abort r.loader.active],
        f.Within fun a e => a = b → e.type = "abort" := by
      intro f hf
      cases List.mem_singleton.mp hf
      exact fun a _ e he _ => he
    rcases aborted_or_kept c.watched.loading (c.watched.loading.told_drive within) c.unheard
      (some .nothing) with told | ⟨hat, unheard⟩
    · exact .inr (.inr ⟨.inl rfl, told⟩)
    · refine .inl (c.keep hm ?_ unheard)
      rw [hstep, after_loader]
      exact hat
  | resumed hs =>
    rename_i s outer
    have within : ∀ f ∈ s.rest, f.Within fun a e => a = b → e.type = "abort" :=
      c.unheard s (by rw [hs]; exact List.mem_cons_self ..)
    have done := aborted_or_kept c.watched.loading (c.watched.loading.told_drive within)
      (c.unheard.outer hs) s.answer
    rw [← step_returns hs] at done
    rcases done with told | ⟨hat, unheard⟩
    · exact .inr (.inr ⟨.inr rfl, told⟩)
    · refine .inl (c.keep hm ?_ unheard)
      rw [step_returns hs, after_loader]
      exact hat
  | raised f hs =>
    rename_i s outer
    have frames : ∀ f ∈ s.rest, f.OfLoads :=
      c.watched.frames s (by rw [hs]; exact List.mem_cons_self ..)
    have hstep := step_raises hs frames f
    refine .inl (c.keep hm ?_ ?_)
    · rw [hstep]
      exact fun _ hx => hx
    · rw [hstep]
      exact c.unheard.outer hs

/-- A load that is cut off stays active until its watchdog, a settlement or a shutdown ends it. -/
theorem CutOff.lasts : ∀ {r : Run} {ms : List Move}, CutOff r b → (∀ m ∈ ms, m.LeavesSlots) →
    r.Lasts b ms
  | r, [], c, _ => by
    obtain ⟨x, hx, hopen, -⟩ := c.waiting
    exact .inl (c.watched.loading.orderly.mem_active_of_unsettled hx hopen)
  | r, m :: ms, c, hm => by
    rcases cutOff_of_move c (hm m (List.mem_cons_self ..)) with c' | ended
    · rcases c'.lasts fun m' hm' => hm m' (List.mem_cons_of_mem m hm') with
        hact | ⟨pre, m', post, rfl, ended⟩
      · exact .inl hact
      · exact .inr ⟨m :: pre, m', post, rfl, ended⟩
    · exact .inr ⟨[], m, ms, rfl, ended⟩

end Apart

/-! ## §3 Signals -/

/--
The move keeps a signal from loads of its handle: they are aborted, or one of them is ended from
outside, or the load that is told just now raises an error. The signal came while the calls in
`base` were under way.
-/
inductive CutsShort (base : List Suspension) (h : HandleId) (r : Run) : Move → Prop
  | closed : CutsShort base h r (.invoke .closeLoads)
  | settled {chunk : ChunkId} {a : AttemptId} (e : LoadEvent)
      (ha : r.loader.activeFor? chunk = some a) (hon : r.loader.On h a) :
      CutsShort base h r (.invoke (.settle chunk e))
  | raised (f : Fault) {s : Suspension} {a : AttemptId} {k : CallbackId} {e : LoadEvent}
      (hs : r.suspended = s :: base) (hc : s.call = .tell a k e) : CutsShort base h r (.raises f)

/-- What can be done while a signal goes from load to load. -/
def Carries (base : List Suspension) (h : HandleId) (r : Run) (m : Move) : Prop :=
  m.LeavesSlots ∧ ¬ CutsShort base h r m

/-- A signal has been told to some loads of a handle; the rest will be told when `s` returns. -/
structure Underway (base : List Suspension) (h : HandleId) (e : LoadEvent)
    (targets : List AttemptId) (r : Run) (inner : List Suspension) (s : Suspension)
    (rest : List AttemptId) : Prop where
  suspended : r.suspended = inner ++ s :: base
  telling : ∃ a k, s.call = .tell a k e
  left : ∃ foreign, s.rest = [.signal ⟨rest, foreign⟩ e]
  /-- The calls made since then are about other loads. -/
  inner : ∀ s' ∈ inner, ∀ f ∈ s'.rest, f.Within fun a _ => a ∉ rest
  nodup : rest.Nodup
  waiting : ∀ a ∈ rest, ∃ x, r.loader.attempts.get? a = some x ∧ x.handle = h ∧
    x.settled = false
  parted : r.loader.Parted h
  told : ∀ a ∈ targets, a ∈ rest ∨ ∃ k, .tell a k e ∈ r.calls

/-- A signal has been told to all these loads, or is on its way to those that were not told. -/
def Spreads (base : List Suspension) (h : HandleId) (e : LoadEvent) (targets : List AttemptId)
    (r : Run) : Prop :=
  (∀ a ∈ targets, ∃ k, .tell a k e ∈ r.calls) ∨
    ∃ inner s rest, Underway base h e targets r inner s rest

section Signals

variable {r : Run} {m : Move} {base inner : List Suspension} {s : Suspension} {h : HandleId}
  {e : LoadEvent} {targets rest : List AttemptId}

theorem mem_calls_after {c : Call} (answer : Option Answer) (p : Loader × Progress)
    (hc : c ∈ r.calls) : c ∈ (r.after answer p).calls := by
  obtain ⟨l, progress⟩ := p
  cases progress with
  | finished => exact hc
  | raised f => exact hc
  | calling call rest => exact List.mem_append_left _ hc

/-- Calls that were made stay made. -/
theorem mem_calls_step {c : Call} (m : Move) (hc : c ∈ r.calls) : c ∈ (r.step m).calls := by
  cases m with
  | invoke op =>
    simp only [step]
    split
    · exact hc
    · exact mem_calls_after _ _ hc
  | returns =>
    simp only [step]
    split
    · exact hc
    · exact mem_calls_after (r := { r with suspended := _ }) _ _ hc
  | raises f =>
    simp only [step]
    split
    · exact hc
    · exact mem_calls_after (r := { r with suspended := _ }) _ _ hc
  | runJob =>
    simp only [step]
    split
    · exact mem_calls_after _ _ hc
    · exact hc
  | fire target =>
    simp only [step]
    split
    · exact mem_calls_after _ _ hc
    · exact hc
  | setClock now =>
    simp only [step]
    split
    · exact hc
    · exact hc
  | reorder active =>
    simp only [step]
    split
    · exact hc
    · exact hc
  | replan resolve hasAsset => exact hc

/-- A signal sets out for loads that are all open: it is told to the first, and goes on later. -/
theorem spreads_of_signal {l : Loader} (loading : l.Loading none) (hr : r.suspended = base)
    {waiting : List AttemptId} (hn : waiting.Nodup)
    (hopen : ∀ a ∈ waiting, ∃ x, l.attempts.get? a = some x ∧ x.handle = h ∧ x.settled = false)
    (told : ∀ a ∈ targets, a ∈ waiting ∨ ∃ k, .tell a k e ∈ r.calls)
    (foreign : Option CallbackId) (answer : Option Answer) :
    Spreads base h e targets (r.after answer (l.drive [.signal ⟨waiting, foreign⟩ e])) := by
  cases waiting with
  | nil =>
    refine .inl fun a ha => ?_
    rcases told a ha with hmem | ⟨k, hk⟩
    · exact absurd hmem List.not_mem_nil
    · exact ⟨k, mem_calls_after _ _ hk⟩
  | cons a rest =>
    obtain ⟨x, hx, hxh, hxs⟩ := hopen a (List.mem_cons_self ..)
    obtain ⟨k, hd⟩ := loading.called a x hx
    obtain ⟨l', hcon, hs⟩ := loading.signal_open (by simp) hx hxs hd e foreign rest
    have ended := loading.concluded (by simp) hx hcon
    obtain ⟨hnot, hrest⟩ := List.nodup_cons.mp hn
    have hdrive : l.drive [.signal ⟨a :: rest, foreign⟩ e] =
        (l', .calling (.tell a k e) [.signal ⟨rest, foreign⟩ e]) := by
      simp [Loader.drive, Loader.perform, hs]
    rw [hdrive]
    refine .inr ⟨[], ⟨.tell a k e, [.signal ⟨rest, foreign⟩ e], answer⟩, rest, ?_⟩
    refine
      { suspended := by rw [← hr]; rfl
        telling := ⟨a, k, rfl⟩
        left := ⟨foreign, rfl⟩
        inner := fun s' hs' => absurd hs' List.not_mem_nil
        nodup := hrest
        waiting := ?_
        parted := ?_
        told := ?_ }
    · intro b hb
      obtain ⟨y, hy, hyh, hys⟩ := hopen b (List.mem_cons_of_mem a hb)
      have hne : a ≠ b := by
        rintro rfl
        exact hnot hb
      refine ⟨y, ?_, hyh, hys⟩
      show l'.attempts.get? b = some y
      rw [ended.other hne]
      exact hy
    · exact ⟨a, { x with settled := true }, ended.self hx, hxh, rfl⟩
    · intro b hb
      rcases told b hb with hmem | ⟨k', hk'⟩
      · rcases List.mem_cons.mp hmem with rfl | hmem
        · exact .inr ⟨k, by simp [after]⟩
        · exact .inl hmem
      · exact .inr ⟨k', List.mem_append_left _ hk'⟩

namespace Underway

/-- The signal is where it was, and a call more or less is under way inside. -/
theorem beside (u : Underway base h e targets r inner s rest) {r' : Run}
    {inner' : List Suspension} (hs : r'.suspended = inner' ++ s :: base)
    (hinner : ∀ s' ∈ inner', ∀ f ∈ s'.rest, f.Within fun a _ => a ∉ rest)
    (hat : ∀ a x, a ∈ rest → r.loader.attempts.get? a = some x →
      r'.loader.attempts.get? a = some x)
    (later : r.loader.Later r'.loader) (hcalls : ∀ c ∈ r.calls, c ∈ r'.calls) :
    Underway base h e targets r' inner' s rest where
  suspended := hs
  telling := u.telling
  left := u.left
  inner := hinner
  nodup := u.nodup
  waiting := by
    intro a ha
    obtain ⟨x, hx, hxh, hxs⟩ := u.waiting a ha
    exact ⟨x, hat a x ha hx, hxh, hxs⟩
  parted := u.parted.later later
  told := by
    intro a ha
    rcases u.told a ha with hmem | ⟨k, hk⟩
    · exact .inl hmem
    · exact .inr ⟨k, hcalls _ hk⟩

/-- The load that is told returns, and the signal goes on; or a call inside returns. -/
theorem returns (u : Underway base h e targets r inner s rest) (w : Watched r) :
    Spreads base h e targets (r.step .returns) := by
  cases inner with
  | nil =>
    obtain ⟨foreign, hleft⟩ := u.left
    rw [step_returns u.suspended, hleft]
    exact spreads_of_signal (r := { r with suspended := base }) w.loading rfl u.nodup u.waiting
      u.told foreign s.answer
  | cons s' inner =>
    have hs : r.suspended = s' :: (inner ++ s :: base) := u.suspended
    have within : ∀ f ∈ s'.rest, f.Within fun a _ => a ∉ rest :=
      u.inner s' (List.mem_cons_self ..)
    have spares : Spares (· ∈ rest) { r with suspended := inner ++ s :: base }
        (r.step .returns) := by
      rw [step_returns hs]
      exact .work (r := { r with suspended := inner ++ s :: base }) w.loading rfl
        (w.loading.told_drive within)
    have keep : ∀ inner', (r.step .returns).suspended = inner' ++ s :: base →
        (∀ s'' ∈ inner', ∀ f ∈ s''.rest, f.Within fun a _ => a ∉ rest) →
          Spreads base h e targets (r.step .returns) := fun inner' hs' hinner =>
      .inr ⟨inner', s, rest, u.beside hs' hinner (fun a x ha hx => spares.attempts a x ha hx)
        (later_of_move w trivial) fun _ hc => mem_calls_step _ hc⟩
    have outer : ∀ s'' ∈ inner, ∀ f ∈ s''.rest, f.Within fun a _ => a ∉ rest :=
      fun s'' hs'' => u.inner s'' (List.mem_cons_of_mem s' hs'')
    rcases spares.suspended with hsame | ⟨s₁, hpush, hs₁⟩
    · exact keep inner hsame outer
    · refine keep (s₁ :: inner) hpush fun s'' hs'' => ?_
      rcases List.mem_cons.mp hs'' with rfl | hs''
      · exact hs₁
      · exact outer s'' hs''

theorem move (u : Underway base h e targets r inner s rest) (w : Watched r)
    (sh : r.loader.Shared) (hm : Carries base h r m) :
    Spreads base h e targets (r.step m) := by
  obtain ⟨leaves, uncut⟩ := hm
  have later := later_of_move w leaves.ofLoads
  have cut : ∀ a ∈ rest, ∃ x, r.loader.attempts.get? a = some x ∧ r.loader.Parted x.handle := by
    intro a ha
    obtain ⟨x, hx, hxh, -⟩ := u.waiting a ha
    exact ⟨x, hx, hxh ▸ u.parted⟩
  cases passing_of_move (P := (· ∈ rest)) w sh leaves cut with
  | spared spares =>
    rcases spares.suspended with hsame | ⟨s', hpush, hs'⟩
    · exact .inr ⟨inner, s, rest, u.beside (hsame.trans u.suspended) u.inner
        (fun a x ha hx => spares.attempts a x ha hx) later fun _ hc => mem_calls_step m hc⟩
    · have hs₁ : (r.step m).suspended = (s' :: inner) ++ s :: base := by
        rw [hpush, u.suspended]
        rfl
      refine .inr ⟨s' :: inner, s, rest, u.beside hs₁ (fun s'' hs'' => ?_)
        (fun a x ha hx => spares.attempts a x ha hx) later fun _ hc => mem_calls_step m hc⟩
      rcases List.mem_cons.mp hs'' with rfl | hs''
      · exact hs'
      · exact u.inner s'' hs''
  | ends ha hends =>
    cases hends with
    | fired hi =>
      -- No watchdog fires in the middle of a call.
      have hidle : r.suspended = [] := List.isEmpty_iff.mp hi
      rw [u.suspended] at hidle
      exact absurd hidle (by simp)
    | settled hact =>
      obtain ⟨x, hx, hxh, -⟩ := u.waiting _ ha
      exact absurd (.settled _ hact ⟨x, hx, hxh⟩) uncut
  | closed => exact absurd .closed uncut
  | resumed => exact u.returns w
  | raised f =>
    cases inner with
    | nil =>
      obtain ⟨a, k, hc⟩ := u.telling
      exact absurd (.raised f u.suspended hc) uncut
    | cons s' inner =>
      have hs : r.suspended = s' :: (inner ++ s :: base) := u.suspended
      have frames : ∀ f ∈ s'.rest, f.OfLoads :=
        w.frames s' (by rw [hs]; exact List.mem_cons_self ..)
      rw [step_raises hs frames]
      exact .inr ⟨inner, s, rest, u.beside rfl
        (fun s'' hs'' => u.inner s'' (List.mem_cons_of_mem s' hs'')) (fun _ _ _ hx => hx)
        (.refl _) fun _ hc => hc⟩

end Underway

/-- What can be done while a signal spreads does not keep it from any load. -/
theorem Spreads.move (w : Watched r) (sh : r.loader.Shared) (spreads : Spreads base h e targets r)
    (hm : Carries base h r m) : Spreads base h e targets (r.step m) := by
  rcases spreads with told | ⟨inner, s, rest, u⟩
  · refine .inl fun a ha => ?_
    obtain ⟨k, hk⟩ := told a ha
    exact ⟨k, mem_calls_step m hk⟩
  · exact u.move w sh hm

/-- However much is done while a signal spreads, it is told to the loads or on its way to them. -/
theorem Spreads.steps : ∀ {r : Run} {ms : List Move}, Watched r → r.loader.Shared →
    Spreads base h e targets r → r.Admits (Carries base h) ms →
      Watched (r.steps ms) ∧ Spreads base h e targets (r.steps ms)
  | _, [], w, _, spreads, _ => ⟨w, spreads⟩
  | r, m :: ms, w, sh, spreads, hms => by
    have leaves := hms.1.1
    rw [steps_cons]
    exact Spreads.steps (stepped_of_move w leaves.ofLoads).watched (shared_of_move w sh leaves)
      (spreads.move w sh hms.1) hms.2

end Signals

/-! ## §4 Sharing a handle -/

/-- How loads that wait for one handle depend on each other. -/
structure Sharing (r : Run) : Prop where
  /-- A load that its watchdog or someone outside ends leaves the other loads as they are. -/
  apart : ∀ m a e, Ends r a e m → Departed r a e (r.step m)
  /-- But their handle cannot tell them any more, unless it is telling them already. -/
  silenced : ∀ m a x e b y, Ends r a e m → r.loader.attempts.get? a = some x → b ≠ a →
    r.loader.attempts.get? b = some y → y.settled = false → y.handle = x.handle → r.Unheard b →
      ∀ ms, (∀ m' ∈ ms, m'.LeavesSlots) → (r.step m).Lasts b ms
  /-- As long as no load of a handle has ended, its signal is the outcome of all of them. -/
  heard : ∀ m h type, r.Delivers h type m →
    (∀ a x, r.loader.attempts.get? a = some x → x.handle = h → x.settled = false) →
      ∀ ms, (r.step m).Admits (Carries r.suspended h) ms →
        ((r.step m).steps ms).suspended = r.suspended → ∀ a, r.loader.On h a →
          (∃ k, .tell a k (r.loader.signalFrom h type) ∈ ((r.step m).steps ms).calls) ∧
            ((r.step m).steps ms).calls.countP (Call.tells a) = 1

section Sharing

variable {r : Run} {m : Move}

/-- A registry that is empty has no handles that loads could share. -/
theorem shared_opened (policy : Policy) (registry : Registry) (sink : Metrics.Sink) :
    (Loader.ofLoads policy registry sink).Shared := by
  intro h handle hh
  simp [Loader.ofLoads, Table.get?] at hh

/-- Loads that are used without writing to the slots of their handles. -/
theorem shared_of_reachable {start : Run} (w : start.Watched) (sh : start.loader.Shared)
    (hr : Run.Reachable (fun _ m => m.LeavesSlots) start r) :
    r.Watched ∧ r.loader.Shared := by
  induction hr with
  | start => exact ⟨w, sh⟩
  | step _ hm ih =>
    exact ⟨(stepped_of_move ih.1 hm.ofLoads).watched, shared_of_move ih.1 ih.2 hm⟩

theorem Ends.leavesSlots {a : AttemptId} {e : LoadEvent} (h : Ends r a e m) : m.LeavesSlots := by
  cases h <;> trivial

theorem Delivers.leavesSlots {h : HandleId} {type : String} (hd : r.Delivers h type m) :
    m.LeavesSlots := by
  cases hd <;> trivial

/-- The end of one load cuts the others of its handle off. -/
theorem cutOff_of_ends (w : Watched r) (sh : r.loader.Shared) {a b : AttemptId} {x y : Attempt}
    {e : LoadEvent} (hends : Ends r a e m) (ha : r.loader.attempts.get? a = some x) (hne : b ≠ a)
    (hb : r.loader.attempts.get? b = some y) (hopen : y.settled = false)
    (hsame : y.handle = x.handle) (unheard : r.Unheard b) : CutOff (r.step m) b := by
  have departed := departed_of_ends w hends
  have leaves := hends.leavesSlots
  refine ⟨(stepped_of_move w leaves.ofLoads).watched, shared_of_move w sh leaves,
    ⟨y, ?_, hopen, a, { x with settled := true }, ?_, hsame.symm, rfl⟩, ?_⟩
  · rw [departed.attempts, Table.get?_update, if_neg fun h => hne h.symm]
    exact hb
  · rw [departed.attempts, Table.get?_update, if_pos rfl, ha]
    rfl
  · obtain ⟨k, answer, -, hpush⟩ := departed.told
    intro s hs
    rw [hpush] at hs
    rcases List.mem_cons.mp hs with rfl | hs
    · intro f hf
      cases List.mem_singleton.mp hf
      exact fun c hc => absurd hc List.not_mem_nil
    · exact unheard s hs

/-- A signal sets out for all the loads of its handle, if none of them has ended. -/
theorem spreads_of_delivers (w : Watched r) (sh : r.loader.Shared) {h : HandleId} {type : String}
    (hd : r.Delivers h type m)
    (hopen : ∀ a x, r.loader.attempts.get? a = some x → x.handle = h → x.settled = false)
    {handle : Handle} (hh : r.loader.handles.get? h = some handle) :
    r.loader.Queued h (handle.slotFor type).waiting ∧
      Spreads r.suspended h (r.loader.signalFrom h type) (handle.slotFor type).waiting
        (r.step m) := by
  have queued : r.loader.Queued h (handle.slotFor type).waiting := by
    rcases sh h handle hh with fresh | spent
    · unfold Handle.slotFor
      split
      · exact fresh.onLoad
      · exact fresh.onError
    · obtain ⟨a, x, hx, hxh, hs⟩ := spent.parted
      rw [hopen a x hx hxh] at hs
      cases hs
  obtain ⟨answer, l, aside, hstep⟩ := step_of_delivers hd hh
  refine ⟨queued, ?_⟩
  rw [hstep]
  refine spreads_of_signal (aside.loading w.loading) rfl queued.nodup (fun a ha => ?_)
    (fun a ha => .inl ha) _ answer
  obtain ⟨x, hx, hxh⟩ := (queued.mem_iff a).mp ha
  exact ⟨x, by rw [aside.attempts]; exact hx, hxh, hopen a x hx hxh⟩

/-- When the calls that a signal came upon are the innermost again, the signal has spread. -/
theorem Spreads.told {h : HandleId} {e : LoadEvent} {base : List Suspension}
    {targets : List AttemptId} (spreads : Spreads base h e targets r) (hs : r.suspended = base) :
    ∀ a ∈ targets, ∃ k, .tell a k e ∈ r.calls := by
  rcases spreads with told | ⟨inner, s, rest, u⟩
  · exact told
  · have hlen := congrArg List.length (hs.symm.trans u.suspended)
    simp at hlen
    omega

/-- A load that was told something was told nothing else. -/
theorem Watched.told_once (w : Watched r) {a : AttemptId} {k : CallbackId} {e : LoadEvent}
    (hk : .tell a k e ∈ r.calls) : r.calls.countP (Call.tells a) = 1 := by
  have hpos : 0 < r.calls.countP (Call.tells a) :=
    List.countP_pos_iff.mpr ⟨_, hk, by simp [Call.tells]⟩
  have htold := w.counted.told a
  split at htold
  · exact htold
  · omega

end Sharing

/--
Loads over a registry, some of which may wait for one handle. What the handle signals is the outcome
of all its loads, but only if none of them has ended before. The sink refuses no count.
-/
theorem sharing {policy : Policy} {registry : Registry} {sink : Metrics.Sink} {r : Run}
    (hempty : registry.handles = []) (hs : sink.Steady)
    (hr : Run.Reachable (fun _ m => m.LeavesSlots) { loader := .ofLoads policy registry sink } r) :
    Sharing r := by
  obtain ⟨w, sh⟩ := shared_of_reachable (.opened policy hempty hs) (shared_opened _ _ _) hr
  refine ⟨fun m a e hends => departed_of_ends w hends, ?_, ?_⟩
  · intro m a x e b y hends ha hne hb hopen hsame unheard ms hms
    exact (cutOff_of_ends w sh hends ha hne hb hopen hsame unheard).lasts hms
  · intro m h type hd hopen ms hms hback a hon
    obtain ⟨x, hx, rfl⟩ := hon
    obtain ⟨handle, hh⟩ := w.loading.placed a x hx
    obtain ⟨queued, spreads⟩ := spreads_of_delivers w sh hd hopen hh
    have leaves := hd.leavesSlots
    obtain ⟨w', spreads'⟩ := spreads.steps (stepped_of_move w leaves.ofLoads).watched
      (shared_of_move w sh leaves) hms
    obtain ⟨k, hk⟩ := spreads'.told hback a ((queued.mem_iff a).mpr ⟨x, hx, rfl⟩)
    exact ⟨⟨k, hk⟩, w'.told_once hk⟩

/--
Two loads of one handle. Either can be ended from outside, which leaves the other active, and a
signal of the handle would be the outcome of both.
-/
theorem sharing_of_two :
    let opened : Run := { loader := .ofLoads {} (.document [] 0) .silent }
    let r := opened.steps
      [.invoke (.load (.name "a") "/both.css" (.call 1)),
        .invoke (.load (.name "b") "/both.css" (.call 2))]
    Sharing r ∧ r.loader.active = [0, 1] ∧ r.suspended = [] ∧
      Ends r 0 { type := "load" } (.invoke (.settle (.name "a") { type := "load" })) ∧
      r.Delivers 0 "load" (.invoke (.dispatch 0 "load")) ∧
      (r.loader.attempts.rows.map fun x => (x.handle, x.settled)) = [(0, false), (0, false)] := by
  intro opened r
  have hr : Reachable (fun _ m => m.LeavesSlots) opened r := by
    refine Reachable.start.steps _ fun s m hm => ?_
    simp only [List.mem_cons, List.not_mem_nil, or_false] at hm
    rcases hm with rfl | rfl <;> trivial
  exact ⟨sharing rfl Metrics.Sink.steady_silent hr, by decide, by decide,
    .settled (by decide), .dispatch, by decide⟩

/--
Two loads of one handle, of which one is ended from outside and told so. Then the handle signals
that it is loaded, but the other load is not told, though it is active and no call is under way.
-/
theorem silent_after_settle :
    let opened : Run := { loader := .ofLoads {} (.document [] 0) .silent }
    let r := opened.steps
      [.invoke (.load (.name "a") "/both.css" (.call 1)),
        .invoke (.load (.name "b") "/both.css" (.call 2)),
        .invoke (.settle (.name "a") { type := "load" }), .returns]
    let r' := r.step (.invoke (.dispatch 0 "load"))
    r.loader.active = [1] ∧ (r.loader.attempts.get? 1).map (·.handle) = some 0 ∧
      r.loader.watchdogs.map (·.attempt) = [1] ∧ r.suspended = [] ∧
      r.Delivers 0 "load" (.invoke (.dispatch 0 "load")) ∧
      r'.calls = [.tell 0 1 { type := "load" }] ∧ r'.loader.active = [1] ∧ r'.suspended = [] :=
  ⟨by decide, by decide, by decide, by decide, .dispatch, by decide, by decide, by decide⟩

end Run

end SingleFlight
