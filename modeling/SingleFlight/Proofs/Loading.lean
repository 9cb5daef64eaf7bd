/-
SingleFlight.Proofs.Loading — work on loads that tell their user.

Loads over a registry, without a cache: each tells its outcome to code of its
user. Whatever a piece of work is to do with such loads, it stops at the first
call it makes.

* `Loader.Loading` — what holds of such a loader between moves, and, with a
  loose load, in the middle of one.
* `Loading.conclude`, `Loading.load` — the end and the beginning of a load;
  `Loader.Concluded` and `Loader.Joined` say what they change.
* `Frame.Within` — whom a piece of work may still tell what.
* `Loader.Told` — all that a piece of work can come to: nothing at all, or one
  call. `told_drive` says so for every stack.
-/
import SingleFlight.Loader.Operation
import SingleFlight.Proofs.Loads
import SingleFlight.Proofs.Registered

namespace SingleFlight

/-- The work of loads, in which every load that may be told is told what `Q` says. -/
def Frame.Within (Q : AttemptId → LoadEvent → Prop) : Frame → Prop
  | .signal s e => ∀ a ∈ s.waiting, Q a e
  | .abort attempts => ∀ a ∈ attempts, ∀ e : LoadEvent, e.type = "abort" → Q a e
  | _ => False

/-- Any work of loads. -/
def Frame.OfLoads (f : Frame) : Prop :=
  f.Within fun _ _ => True

namespace Loader

/-! ## §1 The invariant -/

/-- Loads over a registry whose outcomes go to code of the user. -/
structure Loading (l : Loader) (loose : Option AttemptId) : Prop where
  orderly : l.Orderly loose
  steady : l.sink.Steady
  called : ∀ a x, l.attempts.get? a = some x → ∃ k, x.done = .call k
  placed : ∀ a x, l.attempts.get? a = some x → ∃ handle, l.handles.get? x.handle = some handle
  tidy : l.registry.Tidy l.handles
  tasks : l.tasks = {}
  unused : l.cache.entries = []

/-- How a load leaves things when it is told: it holds on to nothing. -/
structure Released (l : Loader) (a : AttemptId) (e : LoadEvent) : Prop where
  inactive : a ∉ l.active
  disarmed : ∀ w ∈ l.watchdogs, w.attempt ≠ a
  freed : ∃ x handle, l.attempts.get? a = some x ∧ l.handles.get? x.handle = some handle ∧
    handle.onLoad = {} ∧ handle.onError = {} ∧ handle.loading = false ∧
    (e.isLoad = false → x.handle ∉ l.registry.handles)

/-- What the end of a load changes. -/
structure Concluded (l : Loader) (a : AttemptId) (x : Attempt) (l' : Loader) : Prop where
  attempts : l'.attempts = l.attempts.update a ({ · with settled := true })
  handles : l'.handles = l.handles.update x.handle (·.release)
  active : l'.active = l.active.filter (· ≠ a)
  watchdogs : l'.watchdogs = l.watchdogs.filter (·.attempt ≠ a)

/-- A load that has ended has its outcome. -/
theorem Concluded.self {l l' : Loader} {a : AttemptId} {x : Attempt} (ended : l.Concluded a x l')
    (ha : l.attempts.get? a = some x) :
    l'.attempts.get? a = some { x with settled := true } := by
  rw [ended.attempts, Table.get?_update, if_pos rfl, ha]
  rfl

/-- The other loads are as they were. -/
theorem Concluded.other {l l' : Loader} {a b : AttemptId} {x : Attempt}
    (ended : l.Concluded a x l') (hne : a ≠ b) :
    l'.attempts.get? b = l.attempts.get? b := by
  rw [ended.attempts, Table.get?_update, if_neg hne]

/-- How a load that begins gets into the slots of its handle. -/
inductive Joined (l : Loader) : HandleId → Loader → Prop
  | created {made : Handle} {l' : Loader} (hload : made.onLoad = {}) (herror : made.onError = {})
      (handles : l'.handles =
        (l.handles.add made).update l.handles.size (·.observe l.attempts.size)) :
      Joined l l.handles.size l'
  | adopted {h : HandleId} {handle : Handle} {l' : Loader} (hh : l.handles.get? h = some handle)
      (hl : handle.loading = true)
      (handles : l'.handles = l.handles.update h (·.observe l.attempts.size)) : Joined l h l'

namespace Loading

variable {l l' : Loader} {loose : Option AttemptId} {a : AttemptId} {x : Attempt}

/-- A handle that changes keeps its address, and the loads that wait for it their handle. -/
theorem change (h : Loading l loose) (k : HandleId) {f : Handle → Handle}
    (hf : ∀ handle, (f handle).url = handle.url) : Loading (l.changeHandle k f) loose where
  orderly := h.orderly.congr rfl rfl rfl
  steady := h.steady
  called := h.called
  placed := by
    intro a x ha
    obtain ⟨handle, hh⟩ := h.placed a x ha
    by_cases hk : k = x.handle
    · exact ⟨f handle, by simp [changeHandle, Table.get?_update, hk, hh]⟩
    · exact ⟨handle, by simp [changeHandle, Table.get?_update, hk, hh]⟩
  tidy := h.tidy.update k hf
  tasks := h.tasks
  unused := h.unused

theorem placed_add (h : Loading l loose) (made : Handle) {a : AttemptId} {x : Attempt}
    (ha : l.attempts.get? a = some x) :
    ∃ handle, (l.handles.add made).get? x.handle = some handle := by
  obtain ⟨handle, hh⟩ := h.placed a x ha
  exact ⟨handle, Table.get?_add_of_some hh made⟩

/-- A handle that is made and not registered. -/
theorem make (h : Loading l loose) (made : Handle) : Loading (l.newHandle made).1 loose where
  orderly := h.orderly.congr rfl rfl rfl
  steady := h.steady
  called := h.called
  placed := fun _ _ ha => h.placed_add made ha
  tidy := h.tidy.add made
  tasks := h.tasks
  unused := h.unused

theorem plant (h : Loading l loose) (made : Handle) : Loading (l.plant made).1 loose where
  orderly := h.orderly.congr rfl rfl rfl
  steady := h.steady
  called := h.called
  placed := fun _ _ ha => h.placed_add made ha
  tidy := ((h.tidy.add made).enter h.tidy.size_not_mem
    ⟨made, by simp [Table.get?_add], rfl⟩).2
  tasks := h.tasks
  unused := h.unused

/-- A load that is marked as settled was there before, with the same handle and the same user. -/
theorem attempt_of_settle {attempts : Table Attempt} {b : AttemptId} {y : Attempt}
    (hb : (attempts.update a ({ · with settled := true })).get? b = some y) :
    ∃ y', attempts.get? b = some y' ∧ y.done = y'.done ∧ y.handle = y'.handle := by
  rw [Table.get?_update] at hb
  split at hb
  · obtain ⟨y', hy', rfl⟩ := Option.map_eq_some_iff.mp hb
    exact ⟨y', hy', rfl, rfl⟩
  · exact ⟨y, hb, rfl, rfl⟩

/-- A load ends, and holds on to nothing any more. -/
theorem conclude (h : Loading l loose) (hl : ∀ b, loose = some b → b = a)
    (ha : l.attempts.get? a = some x) (e : LoadEvent) :
    ∃ l', l.conclude a x e = (l', none) ∧ Loading l' none ∧ l'.Released a e ∧
      l.Concluded a x l' := by
  obtain ⟨handle, hh⟩ := h.placed a x ha
  obtain ⟨sink, log, steady, hcon⟩ := conclude_eq h.steady a x e
  obtain ⟨tidy, gone⟩ := l.tidy_registryAfter h.tidy hh e
  have freed := h.change x.handle (f := Handle.release) fun _ => rfl
  refine ⟨_, hcon, ?_, ?_, ⟨rfl, rfl, rfl, rfl⟩⟩
  · refine
      { orderly := h.orderly.conclude hl rfl rfl rfl
        steady
        called := ?_
        placed := ?_
        tidy := tidy.update x.handle fun _ => rfl
        tasks := h.tasks
        unused := h.unused }
    · intro b y hb
      obtain ⟨y', hy', hdone, -⟩ := attempt_of_settle hb
      rw [hdone]
      exact h.called b y' hy'
    · intro b y hb
      obtain ⟨y', hy', -, hhandle⟩ := attempt_of_settle hb
      rw [hhandle]
      exact freed.placed b y' hy'
  · refine ⟨by simp, fun w hw => by simpa using (List.mem_filter.mp hw).2, ?_⟩
    refine ⟨{ x with settled := true }, handle.release, ?_, ?_, rfl, rfl, rfl, gone⟩
    · rw [Table.get?_update, if_pos rfl, ha]
      rfl
    · rw [Table.get?_update, if_pos rfl, hh]
      rfl

/-- What a load that ended has changed. -/
theorem concluded (h : Loading l loose) (hl : ∀ b, loose = some b → b = a)
    (ha : l.attempts.get? a = some x) {e : LoadEvent} (hcon : l.conclude a x e = (l', none)) :
    l.Concluded a x l' := by
  obtain ⟨l₁, hcon', -, -, ended⟩ := h.conclude hl ha e
  rw [hcon] at hcon'
  cases hcon'
  exact ended

/-! ### How a load begins -/

/-- A load that waits for its handle. -/
theorem wait {k : CallbackId} {chunk : ChunkId} {hid : HandleId} {due : Float}
    (h : Loading l none) (handles : Loading { l with handles := l'.handles } none)
    (hh : ∃ handle, l'.handles.get? hid = some handle)
    (hat : l'.attempts = l.attempts.add { chunk, handle := hid, done := .call k })
    (hac : l'.active = l.active ++ [l.attempts.size])
    (hw : l'.watchdogs = l.watchdogs ++ [⟨l.attempts.size, due⟩])
    (tidy : l'.registry.Tidy l'.handles) (steady : l'.sink.Steady)
    (hc : l'.cache = l.cache) (ht : l'.tasks = l.tasks) : Loading l' none where
  orderly := h.orderly.wait rfl hat hac hw
  steady := steady
  called := by
    intro a x ha
    rw [hat, Table.get?_add] at ha
    split at ha
    · cases ha
      exact ⟨k, rfl⟩
    · exact h.called a x ha
  placed := by
    intro a x ha
    rw [hat, Table.get?_add] at ha
    split at ha
    · cases ha
      exact hh
    · exact handles.placed a x ha
  tidy := tidy
  tasks := ht ▸ h.tasks
  unused := hc ▸ h.unused

/-- A load begins: it waits for its handle, or is loose on one that is complete. -/
theorem load (h : Loading l none) (chunk : ChunkId) (url : String) (k : CallbackId) :
    (∃ l' hid, l.load chunk url (.call k) = (l', .ok (hid, none)) ∧ Loading l' none ∧
      l'.attempts = l.attempts.add { chunk, handle := hid, done := .call k } ∧
      l.Joined hid l') ∨
    ∃ l' hid, l.load chunk url (.call k) = (l', .ok (hid, some l.attempts.size)) ∧
      Loading l' (some l.attempts.size) ∧
      l'.attempts = l.attempts.add { chunk, handle := hid, done := .call k } ∧
      l'.handles = l.handles := by
  cases hf : l.findHandle chunk url with
  | none =>
    obtain ⟨sink, log, fetches, ready, steady, hl, -⟩ := load_of_unfound (.call k) h.steady hf
    have made := (h.make (l.madeHandle chunk url)).change l.handles.size
      (f := (·.observe l.attempts.size)) fun _ => rfl
    have hnew : ((l.handles.add (l.madeHandle chunk url)).update l.handles.size
        (·.observe l.attempts.size)).get? l.handles.size =
          some ((l.madeHandle chunk url).observe l.attempts.size) := by
      simp [Table.get?_update, Table.get?_add]
    refine .inl ⟨_, _, hl, ?_, rfl, @Joined.created l (l.madeHandle chunk url) _ rfl rfl rfl⟩
    refine h.wait { made with orderly := h.orderly.congr rfl rfl rfl } ⟨_, hnew⟩ rfl rfl rfl ?_
      steady rfl rfl
    exact (made.tidy.enter h.tidy.size_not_mem ⟨_, hnew, rfl⟩).1
  | some hid =>
    obtain ⟨handle, hh⟩ := h.tidy.exists_of_mem (Registry.find?_mem hf)
    cases hload : (l.handles.get? hid).any (·.loading) with
    | true =>
      obtain ⟨sink, log, steady, hl⟩ := load_of_loading (.call k) hf h.steady hload
      have observed := h.change hid (f := (·.observe l.attempts.size)) fun _ => rfl
      have waited : handle.loading = true := by
        simpa [hh] using hload
      refine .inl ⟨_, _, hl, ?_, rfl, .adopted hh waited rfl⟩
      refine h.wait { observed with orderly := h.orderly.congr rfl rfl rfl } ?_ rfl rfl rfl
        observed.tidy steady rfl rfl
      exact ⟨handle.observe l.attempts.size, by simp [Table.get?_update, hh]⟩
    | false =>
      obtain ⟨sink, log, steady, hl⟩ := load_of_complete (.call k) hf h.steady hload
      refine .inr ⟨_, _, hl, ?_, rfl, rfl⟩
      refine
        { orderly := h.orderly.hold rfl rfl rfl
          steady
          called := ?_
          placed := ?_
          tidy := h.tidy
          tasks := h.tasks
          unused := h.unused }
      · intro a x ha
        rw [Table.get?_add] at ha
        split at ha
        · cases ha
          exact ⟨k, rfl⟩
        · exact h.called a x ha
      · intro a x ha
        rw [Table.get?_add] at ha
        split at ha
        · cases ha
          exact ⟨handle, hh⟩
        · exact h.placed a x ha

end Loading

/-! ## §2 What work comes to -/

/-- What work on loads comes to: nothing, or one call, which may tell a load what `Q` says. -/
inductive Told (Q : AttemptId → LoadEvent → Prop) (l : Loader) : Loader × Progress → Prop
  | finished : Told Q l (l, .finished)
  | observed (k : CallbackId) (e : LoadEvent) {rest : List Frame}
      (hrest : ∀ f ∈ rest, f.Within Q) : Told Q l (l, .calling (.observe k e) rest)
  | told {a : AttemptId} {x : Attempt} {k : CallbackId} {e : LoadEvent} {l' : Loader}
      {rest : List Frame} (hq : Q a e) (ha : l.attempts.get? a = some x) (hx : x.settled = false)
      (hd : x.done = .call k) (hcon : l.conclude a x e = (l', none))
      (hrest : ∀ f ∈ rest, f.Within Q) : Told Q l (l', .calling (.tell a k e) rest)

namespace Loading

variable {l : Loader} {loose : Option AttemptId} {a : AttemptId} {x : Attempt} {k : CallbackId}
  {Q : AttemptId → LoadEvent → Prop}

/-- A load that is still open is told of a signal, and whoever waits behind it has to wait. -/
theorem signal_open (h : Loading l loose) (hl : ∀ b, loose = some b → b = a)
    (ha : l.attempts.get? a = some x) (hx : x.settled = false) (hd : x.done = .call k)
    (e : LoadEvent) (foreign : Option CallbackId) (rest : List AttemptId) :
    ∃ l', l.conclude a x e = (l', none) ∧
      signal e foreign (a :: rest) l =
        (l', .calls (.tell a k e) [.signal ⟨rest, foreign⟩ e]) := by
  obtain ⟨l', hcon, -⟩ := h.conclude hl ha e
  refine ⟨l', hcon, ?_⟩
  simp only [signal, ha, hx, hcon, hd, Bool.false_eq_true, if_false]

theorem signal_cases (h : Loading l none) (e : LoadEvent) (foreign : Option CallbackId)
    (waiting : List AttemptId) :
    signal e foreign waiting l = (l, .through) ∨
      (∃ k, foreign = some k ∧
        signal e foreign waiting l = (l, .calls (.observe k e) [])) ∨
      ∃ a rest x k l', waiting = a :: rest ∧ l.attempts.get? a = some x ∧ x.settled = false ∧
        x.done = .call k ∧ l.conclude a x e = (l', none) ∧
        signal e foreign waiting l =
          (l', .calls (.tell a k e) [.signal ⟨rest, foreign⟩ e]) := by
  cases waiting with
  | nil =>
    cases foreign with
    | none => exact .inl rfl
    | some k => exact .inr (.inl ⟨k, rfl, rfl⟩)
  | cons a rest =>
    cases ha : l.attempts.get? a with
    | none => exact .inl (by simp [signal, ha])
    | some x =>
      cases hx : x.settled with
      | true => exact .inl (by simp [signal, ha, hx])
      | false =>
        obtain ⟨k, hd⟩ := h.called a x ha
        obtain ⟨l', hcon, hs⟩ := h.signal_open (by simp) ha hx hd e foreign rest
        exact .inr (.inr ⟨a, rest, x, k, l', rfl, ha, hx, hd, hcon, hs⟩)

/-- A load that is ended from outside is told, unless it has its outcome. -/
theorem settleLoad_cases (h : Loading l none) (a : AttemptId) (e : LoadEvent) :
    (a ∉ l.active ∧ l.settleLoad a e = (l, .through)) ∨
      ∃ x k l', l.attempts.get? a = some x ∧ x.settled = false ∧ x.done = .call k ∧
        l.conclude a x e = (l', none) ∧
        l.settleLoad a e = (l', .calls (.tell a k e) [.signal {} e]) := by
  cases ha : l.attempts.get? a with
  | none =>
    refine .inl ⟨fun hact => ?_, by simp [settleLoad, signal, ha]⟩
    obtain ⟨-, x, hx, -⟩ := (h.orderly.active_iff a).mp hact
    rw [ha] at hx
    cases hx
  | some x =>
    cases hx : x.settled with
    | true =>
      exact .inl ⟨h.orderly.not_mem_active_of_settled ha hx, by simp [settleLoad, signal, ha, hx]⟩
    | false =>
      obtain ⟨k, hd⟩ := h.called a x ha
      obtain ⟨l', hcon, hs⟩ := h.signal_open (by simp) ha hx hd e none []
      exact .inr ⟨x, k, l', rfl, hx, hd, hcon, hs⟩

/-- Aborting loads tells the first of them that is active, and leaves those behind it for later. -/
theorem abortAll_cases (h : Loading l none) (attempts : List AttemptId) :
    ((∀ b ∈ attempts, b ∉ l.active) ∧ abortAll attempts l = (l, .through)) ∨
      ∃ past a left x k l', attempts = past ++ a :: left ∧ (∀ b ∈ past, b ∉ l.active) ∧
        l.attempts.get? a = some x ∧ x.settled = false ∧ x.done = .call k ∧
        l.conclude a x (l.endSignal a "abort") = (l', none) ∧
        abortAll attempts l =
          (l', .calls (.tell a k (l.endSignal a "abort"))
            [.signal {} (l.endSignal a "abort"), .abort left]) := by
  induction attempts with
  | nil => exact .inl ⟨fun _ hb => absurd hb List.not_mem_nil, rfl⟩
  | cons a rest ih =>
    rcases h.settleLoad_cases a (l.endSignal a "abort") with
      ⟨ha, hset⟩ | ⟨x, k, l', hx, hopen, hd, hcon, hset⟩
    · simp only [abortAll, hset]
      rcases ih with ⟨hrest, ih⟩ | ⟨past, b, left, x, k, l', rfl, hpast, hx, hopen, hd, hcon, ih⟩
      · exact .inl ⟨List.forall_mem_cons.mpr ⟨ha, hrest⟩, ih⟩
      · exact .inr ⟨a :: past, b, left, x, k, l', rfl, List.forall_mem_cons.mpr ⟨ha, hpast⟩, hx,
          hopen, hd, hcon, ih⟩
    · refine .inr ⟨[], a, rest, x, k, l', rfl, fun _ hb => absurd hb List.not_mem_nil, hx, hopen,
        hd, hcon, ?_⟩
      simp only [abortAll, hset]
      rfl

/-- Working through a stack stops at the first call. -/
theorem told_drive (h : Loading l none) :
    ∀ {frames : List Frame}, (∀ f ∈ frames, f.Within Q) → Told Q l (l.drive frames)
  | [], _ => .finished
  | frame :: rest, hf => by
    have hfirst : frame.Within Q := hf frame (List.mem_cons_self ..)
    have hrest : ∀ f ∈ rest, f.Within Q := fun f hm => hf f (List.mem_cons_of_mem _ hm)
    have through : l.perform frame = (l, .through) → Told Q l (l.drive (frame :: rest)) := by
      intro hp
      simp only [drive, hp]
      exact told_drive h hrest
    cases frame with
    | signal s e =>
      rcases h.signal_cases e s.foreign s.waiting with
        hs | ⟨k, -, hs⟩ | ⟨a, left, x, k, l', hw, ha, hx, hd, hcon, hs⟩
      · exact through hs
      · simp only [drive, perform, hs]
        exact .observed k e hrest
      · simp only [drive, perform, hs]
        have hq : ∀ b ∈ a :: left, Q b e := hw ▸ hfirst
        refine .told (hq a (List.mem_cons_self ..)) ha hx hd hcon fun f hm => ?_
        rcases List.mem_cons.mp hm with rfl | hm
        · exact fun b hb => hq b (List.mem_cons_of_mem a hb)
        · exact hrest f hm
    | abort attempts =>
      rcases h.abortAll_cases attempts with
        ⟨-, hs⟩ | ⟨past, a, left, x, k, l', rfl, -, ha, hx, hd, hcon, hs⟩
      · exact through hs
      · simp only [drive, perform, hs]
        have hleft : ∀ b ∈ a :: left, b ∈ past ++ a :: left := fun b hb =>
          List.mem_append_right past hb
        refine .told (hfirst a (hleft a (List.mem_cons_self ..)) (l.endSignal a "abort") rfl) ha
          hx hd hcon fun f hm => ?_
        rcases List.mem_cons.mp hm with rfl | hm
        · exact fun b hb => nomatch hb
        · rcases List.mem_cons.mp hm with rfl | hm
          · exact fun b hb => hfirst b (hleft b (List.mem_cons_of_mem a hb))
          · exact hrest f hm
    | _ => exact hfirst.elim

/-- An error leaves the loads that were not told yet as they are. -/
theorem unwind_eq (f : Fault) : ∀ {frames : List Frame}, (∀ f ∈ frames, f.Within Q) →
    ∀ l : Loader, unwind f frames l = (l, .raised f)
  | [], _, _ => rfl
  | frame :: rest, hf, l => by
    have hrest : ∀ f ∈ rest, f.Within Q := fun f hm => hf f (List.mem_cons_of_mem _ hm)
    cases frame with
    | signal s e => exact unwind_eq f hrest l
    | abort attempts => exact unwind_eq f hrest l
    | _ => exact (hf _ (List.mem_cons_self ..)).elim

end Loading

end Loader

end SingleFlight
