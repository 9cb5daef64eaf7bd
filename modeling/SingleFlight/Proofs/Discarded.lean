/-
SingleFlight.Proofs.Discarded — handles that failed are not used again.

A load that does not end well takes its handle out of the registry before it
tells anyone. From then on only new handles come in: a load registers one that
it has just made, and so does whoever plants one. So the handle that failed
stays out for good, although other loads may still wait for it, its signals may
still arrive, and a handle of the same address may have taken its place.

No sink is asked to take what is counted. A count that is refused stops the work
at hand, after the handle was taken out.

* `Loader.Stocked` — what holds of loads and the registry at any time.
* `Loader.Renews` — only new handles have come into the registry;
  `Renews.discarded` is the reason for all the rest.
* `Loader.Leaves` — what work on loads leaves where it stops; `leaves_drive`.
* `Loader.Reloads`, `Run.Without` — a loader that has no use for a handle.
* `Run.never_used_again` — what this comes to in all uses of loads.
-/
import SingleFlight.Proofs.Turns

namespace SingleFlight

namespace Loader

/-! ## §1 Discarded handles -/

/-- Loads that tell their user, on handles that exist; the registry holds such handles only. -/
structure Stocked (l : Loader) : Prop where
  called : ∀ a x, l.attempts.get? a = some x → ∃ k, x.done = .call k
  placed : ∀ a x, l.attempts.get? a = some x → ∃ handle, l.handles.get? x.handle = some handle
  tidy : l.registry.Tidy l.handles
  tasks : l.tasks = {}
  unused : l.cache.entries = []

/-- A handle that is not registered, and is not one that is still to be made. -/
structure Discarded (l : Loader) (h : HandleId) : Prop where
  made : h < l.handles.size
  unregistered : h ∉ l.registry.handles

/-- Handles and loads are kept, and whatever has come into the registry is new. -/
structure Renews (l l' : Loader) : Prop where
  size : l.handles.size ≤ l'.handles.size
  entered : ∀ h ∈ l'.registry.handles, h ∈ l.registry.handles ∨ l.handles.size ≤ h
  held : ∀ a x, l.attempts.get? a = some x →
    ∃ x', l'.attempts.get? a = some x' ∧ x'.handle = x.handle ∧ x'.done = x.done

namespace Renews

variable {l l' l'' : Loader}

theorem refl (l : Loader) : Renews l l :=
  ⟨Nat.le_refl _, fun _ => .inl, fun _ x hx => ⟨x, hx, rfl, rfl⟩⟩

theorem trans (n : l.Renews l') (n' : l'.Renews l'') : l.Renews l'' where
  size := Nat.le_trans n.size n'.size
  entered := by
    intro h hm
    rcases n'.entered h hm with hm | hnew
    · exact n.entered h hm
    · exact .inr (Nat.le_trans n.size hnew)
  held := by
    intro a x hx
    obtain ⟨x₁, hx₁, handle₁, done₁⟩ := n.held a x hx
    obtain ⟨x₂, hx₂, handle₂, done₂⟩ := n'.held a x₁ hx₁
    exact ⟨x₂, hx₂, handle₂.trans handle₁, done₂.trans done₁⟩

/-- A discarded handle is not new, so it does not come back. -/
theorem discarded (n : l.Renews l') {h : HandleId} (d : l.Discarded h) : l'.Discarded h where
  made := Nat.lt_of_lt_of_le d.made n.size
  unregistered := by
    intro hm
    rcases n.entered h hm with hm | hnew
    · exact d.unregistered hm
    · exact Nat.not_le_of_lt d.made hnew

/-- Loads stay as they are. -/
theorem of_attempts (hat : l'.attempts = l.attempts) (size : l.handles.size ≤ l'.handles.size)
    (entered : ∀ h ∈ l'.registry.handles, h ∈ l.registry.handles ∨ l.handles.size ≤ h) :
    l.Renews l' where
  size := size
  entered := entered
  held := by
    rw [hat]
    exact fun _ x hx => ⟨x, hx, rfl, rfl⟩

end Renews

namespace Stocked

variable {l l' : Loader} {a : AttemptId} {x : Attempt}

/-- The same loads, and perhaps more handles. -/
theorem grow (s : l.Stocked) (hat : l'.attempts = l.attempts)
    (size : l.handles.size ≤ l'.handles.size) (tidy : l'.registry.Tidy l'.handles) (ht : l'.tasks = l.tasks)
    (hc : l'.cache.entries = l.cache.entries) : l'.Stocked where
  called := by rw [hat]; exact s.called
  placed := by
    rw [hat]
    intro a x hx
    exact Table.lt_size_iff.mp
      (Nat.lt_of_lt_of_le (Table.lt_size_iff.mpr (s.placed a x hx)) size)
  tidy := tidy
  tasks := ht.trans s.tasks
  unused := hc.trans s.unused

/-- One more load, on a handle that exists. -/
theorem join (s : l.Stocked) {k : CallbackId} (hd : x.done = .call k)
    (hat : l'.attempts = l.attempts.add x) (size : l.handles.size ≤ l'.handles.size)
    (hh : x.handle < l'.handles.size) (tidy : l'.registry.Tidy l'.handles)
    (ht : l'.tasks = l.tasks) (hc : l'.cache.entries = l.cache.entries) : l'.Stocked where
  called := by
    intro b y hb
    rw [hat, Table.get?_add] at hb
    split at hb
    · cases hb
      exact ⟨k, hd⟩
    · exact s.called b y hb
  placed := by
    intro b y hb
    rw [hat, Table.get?_add] at hb
    split at hb
    · cases hb
      exact Table.lt_size_iff.mp hh
    · exact Table.lt_size_iff.mp
        (Nat.lt_of_lt_of_le (Table.lt_size_iff.mpr (s.placed b y hb)) size)
  tidy := tidy
  tasks := ht.trans s.tasks
  unused := hc.trans s.unused

end Stocked

/-- Loads are as they were, and one more has begun. -/
theorem Renews.begun {l l' : Loader} {x : Attempt} (hat : l'.attempts = l.attempts.add x)
    (size : l.handles.size ≤ l'.handles.size)
    (entered : ∀ h ∈ l'.registry.handles, h ∈ l.registry.handles ∨ l.handles.size ≤ h) :
    l.Renews l' where
  size := size
  entered := entered
  held := by
    intro a y hy
    exact ⟨y, by rw [hat]; exact Table.get?_add_of_some hy x, rfl, rfl⟩

/-- Nothing that loads notice: no handle comes into the registry. -/
theorem Aside.renews {l l' : Loader} (aside : l.Aside l') : l.Renews l' := by
  refine .of_attempts aside.attempts ?_ fun h hm => .inl (aside.entered h hm)
  refine Nat.le_of_not_lt fun hlt => ?_
  obtain ⟨handle, hh⟩ := Table.lt_size_iff.mp hlt
  obtain ⟨handle', hh', -⟩ := aside.kept _ handle hh
  exact Table.ne_size_of_get? hh' rfl

theorem Aside.stocked {l l' : Loader} (aside : l.Aside l') (s : l.Stocked) : l'.Stocked :=
  s.grow aside.attempts aside.renews.size (aside.tidy s.tidy) aside.tasks (by rw [aside.cache])

/-- A handle is taken out when a load on it does not end well. -/
theorem Stocked.conclude {l : Loader} (s : l.Stocked) {a : AttemptId} {x : Attempt}
    (ha : l.attempts.get? a = some x) (e : LoadEvent) :
    ∃ l' refusal, l.conclude a x e = (l', refusal) ∧ l'.Stocked ∧ l.Renews l' ∧
      (e.isLoad = false → l'.Discarded x.handle) := by
  obtain ⟨handle, hh⟩ := s.placed a x ha
  obtain ⟨sink, log, refusal, hcon⟩ := l.conclude_shape a x e
  obtain ⟨tidy, gone⟩ := l.tidy_registryAfter s.tidy hh e
  rw [detach_eq] at hcon
  have held : ∀ b y, l.attempts.get? b = some y →
      ∃ y', (l.attempts.update a ({ · with settled := true })).get? b = some y' ∧
        y'.handle = y.handle ∧ y'.done = y.done := by
    intro b y hb
    by_cases hab : a = b
    · exact ⟨{ y with settled := true }, by rw [Table.get?_update, if_pos hab, hb]; rfl, rfl, rfl⟩
    · exact ⟨y, by rw [Table.get?_update, if_neg hab, hb], rfl, rfl⟩
  have entered : ∀ h ∈ (l.registryAfter x.handle e).handles, h ∈ l.registry.handles := by
    intro h hm
    unfold registryAfter Loader.remove at hm
    rw [hh] at hm
    split at hm
    · exact hm
    · exact Registry.mem_of_mem_remove hm
  refine ⟨_, refusal, hcon, ?_, ⟨by simp, fun h hm => .inl (entered h hm), held⟩, fun he => ?_⟩
  · refine
      { called := ?_
        placed := ?_
        tidy := tidy.update x.handle fun _ => rfl
        tasks := s.tasks
        unused := s.unused }
    · intro b y hb
      obtain ⟨y', hy', hdone, -⟩ := Loading.attempt_of_settle hb
      rw [hdone]
      exact s.called b y' hy'
    · intro b y hb
      obtain ⟨y', hy', -, hhandle⟩ := Loading.attempt_of_settle hb
      obtain ⟨handle', hh'⟩ := s.placed b y' hy'
      rw [hhandle]
      exact Table.lt_size_iff.mp (by simpa using Table.lt_size_iff.mpr ⟨handle', hh'⟩)
  · exact ⟨by simpa using Table.lt_size_iff.mpr ⟨handle, hh⟩, gone he⟩

end Loader

/-! ## §2 The work of loads -/

/-- The call at which a piece of work has stopped, and the work that is left then. -/
def Flow.call? : Flow → Option (Call × List Frame)
  | .calls c rest => some (c, rest)
  | _ => none

/-- The call at which a whole stack of work has stopped, and the work that is left then. -/
def Progress.call? : Progress → Option (Call × List Frame)
  | .calling c rest => some (c, rest)
  | _ => none

namespace Loader

/-- A load is told: if it did not end well, its handle has been discarded. -/
def ToldOf (l : Loader) (a : AttemptId) (k : CallbackId) (e : LoadEvent) : Prop :=
  ∃ x, l.attempts.get? a = some x ∧ x.done = .call k ∧ (e.isLoad = false → l.Discarded x.handle)

theorem Renews.toldOf {l l' : Loader} (n : l.Renews l') {a : AttemptId} {k : CallbackId}
    {e : LoadEvent} (t : l.ToldOf a k e) : l'.ToldOf a k e := by
  obtain ⟨x, hx, hd, gone⟩ := t
  obtain ⟨x', hx', hhandle, hdone⟩ := n.held a x hx
  refine ⟨x', hx', hdone.trans hd, fun he => ?_⟩
  rw [hhandle]
  exact n.discarded (gone he)

/-- What work on loads leaves where it stops: at a call, at an error or at its end. -/
structure Leaves (l l' : Loader) (stop : Option (Call × List Frame)) : Prop where
  stocked : l'.Stocked
  renews : l.Renews l'
  told : ∀ a k e rest, stop = some (.tell a k e, rest) → l'.ToldOf a k e
  rest : ∀ c rest, stop = some (c, rest) → ∀ f ∈ rest, f.OfLoads

namespace Leaves

variable {l l' l'' : Loader} {stop : Option (Call × List Frame)}

/-- Work that does not stop at a call. -/
theorem silent (s : l'.Stocked) (n : l.Renews l') : Leaves l l' none :=
  ⟨s, n, nofun, nofun⟩

theorem after (n : l.Renews l') (h : Leaves l' l'' stop) : Leaves l l'' stop :=
  ⟨h.stocked, n.trans h.renews, h.told, h.rest⟩

/-- There is more work left than what was cut off. -/
theorem behind {c : Call} {left : List Frame} (h : Leaves l l' (some (c, left)))
    {frames : List Frame} (hf : ∀ f ∈ frames, f.OfLoads) :
    Leaves l l' (some (c, left ++ frames)) where
  stocked := h.stocked
  renews := h.renews
  told := by
    intro a k e rest heq
    cases heq
    exact h.told a k e left rfl
  rest := by
    intro c' rest heq f hm
    cases heq
    rcases List.mem_append.mp hm with hm | hm
    · exact h.rest c left rfl f hm
    · exact hf f hm

end Leaves

namespace Stocked

variable {l : Loader}

/-- A signal ends the newest of the loads that wait for it, and goes on when that one returns. -/
theorem leaves_signal (s : l.Stocked) (e : LoadEvent) (foreign : Option CallbackId)
    (waiting : List AttemptId) :
    l.Leaves (signal e foreign waiting l).1 (signal e foreign waiting l).2.call? := by
  cases waiting with
  | nil =>
    cases foreign with
    | none => exact .silent s (.refl l)
    | some k =>
      refine ⟨s, .refl l, ?_, ?_⟩
      · intro a k' e' rest heq
        cases heq
      · intro c rest heq f hf
        cases heq
        cases hf
  | cons a rest =>
    cases ha : l.attempts.get? a with
    | none => simpa [signal, ha, Flow.call?] using Leaves.silent s (.refl l)
    | some x =>
      cases hx : x.settled with
      | true => simpa [signal, ha, hx, Flow.call?] using Leaves.silent s (.refl l)
      | false =>
        obtain ⟨k, hd⟩ := s.called a x ha
        obtain ⟨l', refusal, hcon, s', n, gone⟩ := s.conclude ha e
        obtain ⟨x', hx', hhandle, hdone⟩ := n.held a x ha
        cases refusal with
        | some f => simpa [signal, ha, hx, hcon, Flow.call?] using Leaves.silent s' n
        | none =>
          simp only [signal, ha, hx, hcon, hd, Bool.false_eq_true, if_false]
          refine ⟨s', n, ?_, ?_⟩
          · intro b k' e' rest' heq
            cases heq
            exact ⟨x', hx', hdone.trans hd, by rw [hhandle]; exact gone⟩
          · intro c rest' heq f hf
            cases heq
            cases List.mem_singleton.mp hf
            simp [Frame.OfLoads, Frame.Within]

/-- Aborting loads stops where the first of them is told. -/
theorem leaves_abortAll (attempts : List AttemptId) (s : l.Stocked) :
    l.Leaves (abortAll attempts l).1 (abortAll attempts l).2.call? := by
  induction attempts generalizing l with
  | nil => exact .silent s (.refl l)
  | cons a rest ih =>
    have first := s.leaves_signal (l.endSignal a "abort") none [a]
    change l.Leaves (l.settleLoad a (l.endSignal a "abort")).1
      (l.settleLoad a (l.endSignal a "abort")).2.call? at first
    unfold abortAll
    cases hset : l.settleLoad a (l.endSignal a "abort") with
    | mk l₁ flow =>
      rw [hset] at first
      cases flow with
      | through => exact (ih first.stocked).after first.renews
      | fails f => exact first
      | calls c left => exact first.behind (by simp [Frame.OfLoads, Frame.Within])

/-- Working through a stack stops at the first load that is told, or that the sink refuses. -/
theorem leaves_drive {frames : List Frame} (s : l.Stocked) (hf : ∀ f ∈ frames, f.OfLoads) :
    l.Leaves (l.drive frames).1 (l.drive frames).2.call? := by
  induction frames generalizing l with
  | nil => exact .silent s (.refl l)
  | cons frame rest ih =>
    have hfirst : frame.OfLoads := hf frame (List.mem_cons_self ..)
    have hrest : ∀ f ∈ rest, f.OfLoads := fun f hm => hf f (List.mem_cons_of_mem _ hm)
    have first : l.Leaves (l.perform frame).1 (l.perform frame).2.call? := by
      cases frame with
      | signal slot e => exact s.leaves_signal e slot.foreign slot.waiting
      | abort attempts => exact s.leaves_abortAll attempts
      | _ => exact hfirst.elim
    unfold drive
    cases hp : l.perform frame with
    | mk l₁ flow =>
      rw [hp] at first
      cases flow with
      | through => exact (ih first.stocked hrest).after first.renews
      | fails f =>
        simp only [Loading.unwind_eq f hrest]
        exact first
      | calls c left => exact first.behind hrest

end Stocked

/-! ## §3 A load begins -/

/-- What a load call comes to, in a loader that a handle was discarded from. -/
inductive Reloads (l : Loader) (h : HandleId) (chunk : ChunkId) (done : Done) :
    Loader × Asked → Prop
  /-- It waits for another handle, which is registered already. -/
  | adopted {h' : HandleId} {l' : Loader} {work : List Frame} (hm : h' ∈ l.registry.handles)
      (hne : h' ≠ h) (attempts : l'.attempts = l.attempts.add { chunk, handle := h', done })
      (size : l'.handles.size = l.handles.size) (registry : l'.registry = l.registry) :
      Reloads l h chunk done (l', .ok (.handle h', work))
  /-- It makes one handle, and registers it behind all the others. -/
  | created {l' : Loader} (hne : l.handles.size ≠ h)
      (attempts : l'.attempts = l.attempts.add { chunk, handle := l.handles.size, done })
      (size : l'.handles.size = l.handles.size + 1)
      (registered : l'.registry.handles = l.registry.handles ++ [l.handles.size]) :
      Reloads l h chunk done (l', atOnce (.handle l.handles.size))
  /-- The sink refuses to count it: no load has begun, and the registry is as it was. -/
  | refused {l' : Loader} {f : Fault} (mode : HandleMode)
      (hc : (l.count handlesTotal ("mode", mode.word)).2 = some f)
      (attempts : l'.attempts = l.attempts) (registry : l'.registry = l.registry) :
      Reloads l h chunk done (l', .error f)

/-- A load call that begins: what the loader holds then, and what is left to do. -/
structure LoadBegun (l : Loader) (chunk : ChunkId) (k : CallbackId) (p : Loader × Asked) : Prop where
  stocked : p.1.Stocked
  renews : l.Renews p.1
  work : ∀ answer work, p.2 = .ok (answer, work) → ∀ f ∈ work, f.OfLoads
  reloads : ∀ h, l.Discarded h → l.Reloads h chunk (.call k) p

namespace Stocked

variable {l l' : Loader} {chunk : ChunkId} {url : String} {k : CallbackId}

/-- A load that the sink refuses; a handle that was made for it is left unregistered. -/
theorem begun_refused {f : Fault} (mode : HandleMode)
    (hc : (l.count handlesTotal ("mode", mode.word)).2 = some f)
    (hl : l.load chunk url (.call k) = (l', .error f)) (s' : l'.Stocked)
    (size : l.handles.size ≤ l'.handles.size) (hat : l'.attempts = l.attempts)
    (hr : l'.registry = l.registry) :
    l.LoadBegun chunk k (l.invoke (.load chunk url (.call k))) := by
  simp only [invoke, hl]
  exact
    { stocked := s'
      renews := .of_attempts hat size (by rw [hr]; exact fun _ => .inl)
      work := by simp
      reloads := fun h _ => .refused mode hc hat hr }

/-- A load that makes its handle and waits for it. -/
theorem begun_created (s : l.Stocked) (hf : l.findHandle chunk url = none)
    (hl : l.load chunk url (.call k) = (l', .ok (l.handles.size, none)))
    (hat : l'.attempts = l.attempts.add { chunk, handle := l.handles.size, done := .call k })
    (hh : l'.handles = (l.handles.add (l.madeHandle chunk url)).update l.handles.size
      (·.observe l.attempts.size))
    (hr : l'.registry = l.registry.attach l.handles.size url) (ht : l'.tasks = l.tasks)
    (hc : l'.cache = l.cache) : l.LoadBegun chunk k (l.invoke (.load chunk url (.call k))) := by
  have size : l'.handles.size = l.handles.size + 1 := by simp [hh]
  have registered : l'.registry.handles = l.registry.handles ++ [l.handles.size] := by
    rw [hr, Registry.handles_attach hf]
  have row : Registry.Has l'.handles l.handles.size url :=
    ⟨_, by rw [hh]; exact Table.get?_update_self (Table.get?_add_size ..) _, rfl⟩
  have tidy : l'.registry.Tidy l'.handles := by
    rw [hr]
    refine (Registry.Tidy.enter ?_ s.tidy.size_not_mem row).1
    rw [hh]
    exact (s.tidy.add _).update _ fun _ => rfl
  have stocked : l'.Stocked :=
    s.join rfl hat (by omega) (size ▸ Nat.lt_succ_self _) tidy ht (by rw [hc])
  have renews : l.Renews l' := by
    refine .begun hat (by omega) fun h hm => ?_
    rw [registered, List.mem_append, List.mem_singleton] at hm
    exact hm.imp_right fun e => Nat.le_of_eq e.symm
  simp only [invoke, hl]
  exact ⟨stocked, renews, by simp [atOnce],
    fun h d => .created (Nat.ne_of_gt d.made) hat size registered⟩

/-- A load on a registered handle: it waits, or is to be told at once that the handle is complete. -/
theorem begun_adopted (s : l.Stocked) {h : HandleId} (hm : h ∈ l.registry.handles)
    {loose : Option AttemptId} (hl : l.load chunk url (.call k) = (l', .ok (h, loose)))
    (size : l'.handles.size = l.handles.size)
    (hat : l'.attempts = l.attempts.add { chunk, handle := h, done := .call k })
    (hr : l'.registry = l.registry) (ht : l'.tasks = l.tasks) (hc : l'.cache = l.cache)
    (tidy : l.registry.Tidy l'.handles) :
    l.LoadBegun chunk k (l.invoke (.load chunk url (.call k))) := by
  have stocked : l'.Stocked := by
    refine s.join rfl hat (Nat.le_of_eq size.symm) ?_ (hr ▸ tidy) ht (by rw [hc])
    rw [size]
    exact Table.lt_size_iff.mpr (s.tidy.exists_of_mem hm)
  have renews : l.Renews l' :=
    .begun hat (Nat.le_of_eq size.symm) (by rw [hr]; exact fun _ => .inl)
  have ne : ∀ h', l.Discarded h' → h ≠ h' := fun h' d e => d.unregistered (e ▸ hm)
  simp only [invoke, hl]
  cases loose with
  | none => exact ⟨stocked, renews, by simp [atOnce], fun h' d => .adopted hm (ne h' d) hat size hr⟩
  | some a =>
    refine ⟨stocked, renews, ?_, fun h' d => .adopted hm (ne h' d) hat size hr⟩
    intro answer work heq f hf
    cases heq
    cases List.mem_singleton.mp hf
    simp [Frame.OfLoads, Frame.Within]

/-- A load is refused, makes its handle, or finds one. -/
theorem begun (s : l.Stocked) (chunk : ChunkId) (url : String) (k : CallbackId) :
    l.LoadBegun chunk k (l.invoke (.load chunk url (.call k))) := by
  have recounted : ∀ sink, ({ l with sink } : Loader).Stocked := fun sink =>
    s.grow rfl (Nat.le_refl _) s.tidy rfl rfl
  cases hf : l.findHandle chunk url with
  | none =>
    obtain ⟨sink, refusal, hcount⟩ := count_eq
      { l with handles := l.handles.add (l.madeHandle chunk url) } handlesTotal
      ("mode", HandleMode.created.word)
    cases refusal with
    | some f =>
      refine begun_refused .created (congrArg Prod.snd hcount) (load_refused_of_unfound _ hf hcount)
        ?_ (by simp) rfl rfl
      exact (recounted sink).grow rfl (by simp) (s.tidy.add _) rfl rfl
    | none =>
      obtain ⟨log, fetches, asks, hl, -⟩ := load_taken_of_unfound (.call k) hf hcount
      exact s.begun_created hf hl rfl rfl rfl rfl rfl
  | some h =>
    have hm := Registry.find?_mem hf
    cases hload : (l.handles.get? h).any (·.loading) with
    | true =>
      obtain ⟨sink, refusal, hcount⟩ :=
        count_eq l handlesTotal ("mode", HandleMode.adoptedLoading.word)
      cases refusal with
      | some f =>
        exact begun_refused .adoptedLoading (congrArg Prod.snd hcount)
          (load_refused_of_found _ hf (by simp [hload]) hcount) (recounted sink) (Nat.le_refl _)
          rfl rfl
      | none =>
        obtain ⟨log, hl⟩ := load_taken_of_loading (.call k) hf hload hcount
        exact s.begun_adopted hm hl (by simp) rfl rfl rfl rfl (s.tidy.update h fun _ => rfl)
    | false =>
      obtain ⟨sink, refusal, hcount⟩ :=
        count_eq l handlesTotal ("mode", HandleMode.adoptedComplete.word)
      cases refusal with
      | some f =>
        exact begun_refused .adoptedComplete (congrArg Prod.snd hcount)
          (load_refused_of_found _ hf (by simp [hload]) hcount) (recounted sink) (Nat.le_refl _)
          rfl rfl
      | none =>
        obtain ⟨log, hl⟩ := load_taken_of_complete (.call k) hf hload hcount
        exact s.begun_adopted hm hl rfl rfl rfl rfl rfl s.tidy

end Stocked

end Loader

/-! ## §4 Runs -/

namespace Run

/-- A use of loads whose handles are in order: what failed has been discarded. -/
structure Stocked (r : Run) : Prop where
  loader : r.loader.Stocked
  frames : ∀ s ∈ r.suspended, ∀ f ∈ s.rest, f.OfLoads
  told : ∀ a k e, .tell a k e ∈ r.calls → r.loader.ToldOf a k e

/-- A move keeps the use in order, and discarded handles away. -/
structure Restocked (r r' : Run) : Prop where
  stocked : r'.Stocked
  renews : r.loader.Renews r'.loader

section Moves

variable {r : Run} {l : Loader} {answer : Option Answer}

/-- Work, wherever it stops. -/
theorem Stocked.worked (s : r.Stocked) {p : Loader × Progress}
    (h : r.loader.Leaves p.1 p.2.call?) : Restocked r (r.after answer p) := by
  obtain ⟨l, progress⟩ := p
  have told : ∀ a k e, .tell a k e ∈ r.calls → l.ToldOf a k e :=
    fun a k e hm => h.renews.toldOf (s.told a k e hm)
  cases progress with
  | finished => exact ⟨⟨h.stocked, s.frames, told⟩, h.renews⟩
  | raised f => exact ⟨⟨h.stocked, s.frames, told⟩, h.renews⟩
  | calling c rest =>
    refine ⟨⟨h.stocked, ?_, ?_⟩, h.renews⟩
    · intro s' hs'
      rcases List.mem_cons.mp hs' with rfl | hs'
      · exact h.rest c rest rfl
      · exact s.frames s' hs'
    · intro a k e hm
      rcases List.mem_append.mp hm with hm | hm
      · exact told a k e hm
      · cases List.mem_singleton.mp hm
        exact h.told a k e rest rfl

/-- Something is changed at once, before any work. -/
theorem Stocked.worked_after (s : r.Stocked) (h : l.Stocked) (n : r.loader.Renews l)
    {work : List Frame} (hw : ∀ f ∈ work, f.OfLoads) :
    Restocked r (r.after answer (l.drive work)) :=
  s.worked ((h.leaves_drive hw).after n)

theorem Stocked.aside (s : r.Stocked) (aside : r.loader.Aside l) :
    Restocked r (r.after answer (l, .finished)) :=
  s.worked (.silent (aside.stocked s.loader) aside.renews)

/-- A load call. -/
theorem Stocked.load (s : r.Stocked) (chunk : ChunkId) (url : String) (k : CallbackId) :
    Restocked r (r.step (.invoke (.load chunk url (.call k)))) := by
  have begun := s.loader.begun chunk url k
  unfold step
  cases hinv : r.loader.invoke (.load chunk url (.call k)) with
  | mk l asked =>
    rw [hinv] at begun
    cases asked with
    | error f =>
      simp only [hinv]
      have refused : Restocked r (r.after none (l, .raised f)) :=
        s.worked (.silent begun.stocked begun.renews)
      exact refused
    | ok given =>
      obtain ⟨answer, work⟩ := given
      simp only [hinv]
      exact s.worked_after begun.stocked begun.renews (begun.work answer work rfl)

/-- A watchdog fires: it is disarmed, and its load is told. -/
theorem Stocked.fire (s : r.Stocked) (target : Float) : Restocked r (r.step (.fire target)) := by
  have still : Restocked r r := ⟨s, .refl r.loader⟩
  unfold step
  cases hi : r.idle with
  | false => exact still
  | true =>
    cases hw : r.loader.nextDue? target with
    | none => simpa [Loader.fireNext?, hw] using still
    | some w =>
      simp only [Loader.fireNext?, hw, Option.map_some]
      refine s.worked_after ?_ ?_ ?_
      · exact s.loader.grow rfl (Nat.le_refl _) s.loader.tidy rfl rfl
      · exact .of_attempts rfl (Nat.le_refl _) fun _ => .inl
      · simp [Frame.OfLoads, Frame.Within]

theorem Stocked.turn (s : r.Stocked) {m : Move} (turn : Turn r m) : Restocked r (r.step m) := by
  cases turn with
  | load chunk url k => exact s.load chunk url k
  | planted handle =>
    show Restocked r (r.after (some (.handle r.loader.handles.size))
      ((r.loader.plant handle).1, .finished))
    have row : Registry.Has (r.loader.handles.add handle) r.loader.handles.size handle.url :=
      ⟨handle, Table.get?_add_size .., rfl⟩
    refine s.worked (.silent ?_ ?_)
    · exact s.loader.grow rfl (by simp [Loader.plant, Loader.newHandle])
        ((s.loader.tidy.add handle).enter s.loader.tidy.size_not_mem row).2 rfl rfl
    · refine .of_attempts rfl (by simp [Loader.plant, Loader.newHandle]) fun h hm => ?_
      exact (Registry.mem_of_mem_plant hm).imp_right fun e => Nat.le_of_eq e.symm
  | assigned h onLoad onError loading =>
    show Restocked r (r.after (some .nothing)
      (r.loader.assign h onLoad onError loading, .finished))
    have size : (r.loader.assign h onLoad onError loading).handles.size = r.loader.handles.size :=
      Table.size_update ..
    refine s.worked (.silent ?_ ?_)
    · exact s.loader.grow rfl (Nat.le_of_eq size.symm)
        (s.loader.tidy.update h fun _ => rfl) rfl rfl
    · exact .of_attempts rfl (Nat.le_of_eq size.symm) fun _ => .inl
  | aside hstep aside =>
    rw [hstep]
    exact s.aside aside
  | worked hstep origin aside =>
    rw [hstep]
    exact s.worked_after (aside.stocked s.loader) aside.renews origin.ofLoads
  | resumed hs =>
    rename_i top outer
    have frames : ∀ s' ∈ top :: outer, ∀ f ∈ s'.rest, f.OfLoads := hs ▸ s.frames
    have left : Stocked { r with suspended := outer } :=
      ⟨s.loader, fun s' hs' => frames s' (List.mem_cons_of_mem top hs'), s.told⟩
    rw [step_returns hs]
    have done : Restocked { r with suspended := outer }
        ({ r with suspended := outer }.after top.answer (r.loader.drive top.rest)) :=
      left.worked_after s.loader (.refl _) (frames top (List.mem_cons_self ..))
    exact ⟨done.stocked, done.renews⟩
  | raised f hs =>
    rename_i top outer
    have frames : ∀ s' ∈ top :: outer, ∀ f ∈ s'.rest, f.OfLoads := hs ▸ s.frames
    rw [step_raises hs (frames top (List.mem_cons_self ..))]
    exact ⟨⟨s.loader, fun s' hs' => frames s' (List.mem_cons_of_mem top hs'), s.told⟩,
      .refl r.loader⟩

theorem Stocked.step (s : r.Stocked) {m : Move} (hm : m.OfLoads) : Restocked r (r.step m) := by
  cases m with
  | fire target => exact s.fire target
  | _ => exact s.turn (turn_of_unfired s.loader.tasks s.loader.unused hm nofun)

end Moves

/-- A registry in which no handle is. -/
theorem Stocked.opened (policy : Policy) {registry : Registry} (hr : registry.handles = [])
    (sink : Metrics.Sink) : Stocked { loader := .ofLoads policy registry sink } := by
  refine ⟨⟨?_, ?_, .of_empty hr, rfl, rfl⟩, nofun, nofun⟩
  · intro a x h
    simp [Loader.ofLoads, Table.get?] at h
  · intro a x h
    simp [Loader.ofLoads, Table.get?] at h

theorem Stocked.of_reachable {start r : Run} (s : start.Stocked)
    (hr : Reachable (fun _ m => m.OfLoads) start r) : Restocked start r := by
  induction hr with
  | start => exact ⟨s, .refl _⟩
  | step _ hm ih =>
    have done := ih.stocked.step hm
    exact ⟨done.stocked, ih.renews.trans done.renews⟩

/-- A use of loads that has no use for a handle: nobody finds it, and no load waits for it anew. -/
structure Without (r : Run) (h : HandleId) : Prop where
  unregistered : h ∉ r.loader.registry.handles
  unfound : ∀ url tag, r.loader.registry.find? r.loader.handles url tag ≠ some h
  reloads : ∀ chunk url k,
    r.loader.Reloads h chunk (.call k) (r.loader.invoke (.load chunk url (.call k)))

/--
Loads over a registry, whatever the ones who are told and the observers of handles do: once a load
has told an outcome that is not a load, its handle is never used again. This holds as soon as the
one who is told is called.
-/
theorem never_used_again {policy : Policy} {registry : Registry} {sink : Metrics.Sink} {r : Run}
    (hempty : registry.handles = [])
    (hr : Reachable (fun _ m => m.OfLoads) { loader := .ofLoads policy registry sink } r)
    {a : AttemptId} {k : CallbackId} {e : LoadEvent} (ht : .tell a k e ∈ r.calls)
    (he : e.isLoad = false) :
    ∃ x, r.loader.attempts.get? a = some x ∧ x.done = .call k ∧
      ∀ r', Reachable (fun _ m => m.OfLoads) r r' → r'.Without x.handle := by
  have stocked := ((Stocked.opened policy hempty sink).of_reachable hr).stocked
  obtain ⟨x, hx, hd, gone⟩ := stocked.told a k e ht
  refine ⟨x, hx, hd, fun r' hr' => ?_⟩
  have later := stocked.of_reachable hr'
  have d := later.renews.discarded (gone he)
  exact
    { unregistered := d.unregistered
      unfound := fun url tag hf => d.unregistered (Registry.find?_mem hf)
      reloads := fun chunk url k => (later.stocked.loader.begun chunk url k).reloads _ d }

/--
Two loads of one handle, which fails. The one that is told first asks for its chunk again at once,
and gets a handle that stays registered when the other one is told, under the same address.
-/
theorem never_used_again_of_retry :
    let opened : Run := { loader := .ofLoads {} (.keyed [] (.own none)) .silent }
    let failed := opened.steps
      [.invoke (.load (.name "a") "/both.css" (.call 1)),
        .invoke (.load (.name "b") "/both.css" (.call 2)), .invoke (.dispatch 0 "error")]
    let retried := failed.steps
      [.invoke (.load (.name "b") "/both.css" (.call 2)), .returns, .returns]
    failed.idle = false ∧ retried.idle = true ∧ retried.Without 0 ∧
      retried.loader.registry.handles = [1] ∧ retried.loader.active = [2] := by
  intro opened failed retried
  have loads : ∀ (r : Run) (moves : List Move), (∀ m ∈ moves, m.OfLoads) →
      Reachable (fun _ m => m.OfLoads) r (r.steps moves) := fun r moves hm =>
    Reachable.start.steps moves fun _ m => hm m
  have hfailed : Reachable (fun _ m => m.OfLoads) opened failed := by
    refine loads _ _ fun m hm => ?_
    simp only [List.mem_cons, List.not_mem_nil, or_false] at hm
    rcases hm with rfl | rfl | rfl <;> trivial
  have hretried : Reachable (fun _ m => m.OfLoads) failed retried := by
    refine loads _ _ fun m hm => ?_
    simp only [List.mem_cons, List.not_mem_nil, or_false] at hm
    rcases hm with rfl | rfl | rfl <;> trivial
  obtain ⟨x, hx, -, without⟩ := never_used_again (a := 1) (k := 2)
    (e := { type := "error", source := some { url := "/both.css", handle := some 0 } }) rfl hfailed (by decide) (by decide)
  have handle : x.handle = 0 := by
    have hrow : (failed.loader.attempts.get? 1).map (·.handle) = some 0 := by decide
    rw [hx] at hrow
    exact Option.some.inj hrow
  exact ⟨by decide, by decide, handle ▸ without retried hretried, by decide, by decide⟩

end Run

end SingleFlight
