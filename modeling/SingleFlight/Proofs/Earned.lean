/-
SingleFlight.Proofs.Earned — loads that handles have told of.

A chunk is not loaded because somebody says so: some handle that its load waited
for has signalled a load. `told` says of which handles this is known. A signal of
a handle adds the handle to them; nothing else needs more of them than there
are. In particular a registered handle that is complete is one of them, and so
is the handle of every load that is ended well by finding it.

The pieces of work keep this, one lemma for each function, whether or not the
sink takes what is counted.

* `Loader.Earned` — the invariant.
* `Loader.Still` — a change that it does not notice.
* `Earned.signal`, `Earned.start`, `Earned.collect`, `Earned.drive` — the pieces.
* `Run.Told` — a handle has signalled a load in the course of a history.
* `Run.origin_of_loaded` — what this comes to in all uses of a whole loader.
-/
import SingleFlight.Proofs.Origins

namespace SingleFlight

/-- The work brings no news of a load. -/
def Frame.Newsless : Frame → Prop
  | .signal _ e => e.isLoad = false
  | .consult _ e => e.isLoad = false
  | .settle _ e => e.isLoad = false
  | _ => True

namespace Loader

/-! ## §1 The invariant -/

/-- Whatever is complete or loaded is so because a handle has told of a load. -/
structure Earned (told : HandleId → Prop) (known : ChunkId → Prop) (l : Loader) : Prop where
  wired : ∃ resolve, l.plan.wiring = .fetch resolve
  redeems : ∀ a x, l.attempts.get? a = some x → ∃ t, x.done = .redeem t ∧ t.chunk = x.chunk
  placed : ∀ a x, l.attempts.get? a = some x → ∃ y, l.handles.get? x.handle = some y
  tidy : l.registry.Tidy l.handles
  complete : ∀ h x, l.Holds h x → x.loading = false → told h
  loaded : ∀ k, l.cache.find? k = some .loaded →
    known k ∨ ∃ a x, l.attempts.get? a = some x ∧ x.chunk = k ∧ told x.handle

/-- Loads and handles stay as they are, none comes into the registry, and no chunk is loaded. -/
structure Still (l l' : Loader) : Prop where
  wiring : l'.plan.wiring = l.plan.wiring
  attempts : l'.attempts = l.attempts
  handles : l'.handles = l.handles
  tidy : l.registry.Tidy l.handles → l'.registry.Tidy l'.handles
  registry : ∀ h ∈ l'.registry.handles, h ∈ l.registry.handles
  loaded : ∀ k, l'.cache.find? k = some .loaded → l.cache.find? k = some .loaded

variable {told : HandleId → Prop} {known : ChunkId → Prop} {l l' : Loader}

namespace Still

theorem refl (l : Loader) : Still l l :=
  ⟨rfl, rfl, rfl, id, fun _ => id, fun _ => id⟩

theorem trans {l'' : Loader} (s : Still l l') (s' : Still l' l'') : Still l l'' where
  wiring := s'.wiring.trans s.wiring
  attempts := s'.attempts.trans s.attempts
  handles := s'.handles.trans s.handles
  tidy := fun t => s'.tidy (s.tidy t)
  registry := fun h hm => s.registry h (s'.registry h hm)
  loaded := fun k hk => s.loaded k (s'.loaded k hk)

/-- Only promises, tasks, the event loop and the log change. -/
theorem beside (hp : l'.plan = l.plan) (hat : l'.attempts = l.attempts)
    (hh : l'.handles = l.handles) (hr : l'.registry = l.registry)
    (hc : l'.cache.entries = l.cache.entries) : Still l l' where
  wiring := by rw [hp]
  attempts := hat
  handles := hh
  tidy := by rw [hr, hh]; exact id
  registry := by rw [hr]; exact fun _ => id
  loaded := by
    intro k hk
    unfold Cache.find? at hk ⊢
    rw [← hc]
    exact hk

/-- Only entries change, and none becomes loaded. -/
theorem entries {cache : Cache}
    (h : ∀ k, cache.find? k = some .loaded → l.cache.find? k = some .loaded) :
    Still l { l with cache } :=
  ⟨rfl, rfl, rfl, id, fun _ => id, h⟩

theorem settlePromise (l : Loader) (p : PromiseId) (o : Outcome) :
    Still l (l.settlePromise p o) := by
  obtain ⟨ready, h⟩ := l.settlePromise_eq p o
  rw [h]
  exact .beside rfl rfl rfl rfl rfl

theorem drop (l : Loader) (chunk : ChunkId) :
    Still l { l with cache := l.cache.drop chunk } := by
  refine entries fun k hk => ?_
  rw [Cache.find?_drop] at hk
  split at hk
  · cases hk
  · exact hk

theorem abandon (l : Loader) (t : Ticket) : Still l (l.abandon t) := by
  unfold Loader.abandon
  split
  · exact drop l t.chunk
  · exact refl l

/-- An attempt in flight that does not end well. -/
theorem settleEntry (l : Loader) (t : Ticket) {e : LoadEvent} (he : e.isLoad = false) :
    Still l (l.settleEntry t e) := by
  simp only [Loader.settleEntry, he, Bool.false_eq_true, if_false]
  refine (drop l t.chunk).trans (.trans ?_ (settlePromise _ _ _))
  exact .beside rfl rfl rfl rfl rfl

theorem mark (l : Loader) (chunk : ChunkId) {e : Entry} (he : e ≠ .loaded) :
    Still l (l.mark chunk e) := by
  refine entries fun k hk => ?_
  rw [Cache.find?_mark] at hk
  split at hk
  · rename_i hc
    subst hc
    cases hf : l.cache.find? k with
    | none =>
      rw [hf] at hk
      exact absurd (Option.some.inj hk) he
    | some e' =>
      rw [hf] at hk
      exact hk
  · exact hk

theorem count {name : String} {tag : String × String} {refusal : Option Fault}
    (h : l.count name tag = (l', refusal)) : Still l l' := by
  cases h
  exact .beside rfl rfl rfl rfl rfl

/-- A request is taken in. -/
theorem serve (l : Loader) (chunk : ChunkId) : Still l (l.serve chunk).1 := by
  have used : Still l { l with cache := { l.cache with used := true } } := entries fun _ => id
  unfold Loader.serve
  dsimp only
  split
  · rename_i p hf
    have joined : Still l { l with cache := { l.cache with used := true }.join chunk p } := by
      refine entries fun k hk => ?_
      rw [Cache.find?_join] at hk
      split at hk
      · cases hk
      · exact hk
    split
    · rename_i hc
      exact joined.trans (count hc)
    · rename_i hc
      exact joined.trans (count hc)
  · split
    · rename_i hc
      exact used.trans (count hc)
    · rename_i l₁ hc
      have made : Still l₁ l₁.newPromise.1 := .beside rfl rfl rfl rfl rfl
      exact ((used.trans (count hc)).trans made).trans (settlePromise _ _ _)
  · have begun : Still l { l with
        cache := ({ l.cache with used := true }.begin chunk l.promises.create.2).1
        promises := l.promises.create.1 } := by
      refine ⟨rfl, rfl, rfl, id, fun _ => id, fun k hk => ?_⟩
      rw [Cache.find?_begin] at hk
      split at hk
      · cases hk
      · exact hk
    split
    · rename_i hc
      exact begun.trans (count hc)
    · rename_i l₁ hc
      exact (begun.trans (count hc)).trans (.beside rfl rfl rfl rfl rfl)

theorem request (l : Loader) (chunk : ChunkId) : Still l (l.request chunk).1 := by
  unfold Loader.request
  split
  · exact refl l
  · split
    · exact serve l chunk
    · exact (mark l chunk (by simp)).trans (serve _ chunk)

theorem endTask (l : Loader) (t : TaskId) (r : TaskEnd) : Still l (l.endTask t r) :=
  .beside rfl rfl rfl rfl rfl

theorem await (l : Loader) (t : TaskId) (ps : List PromiseId) : Still l (l.await t ps) := by
  obtain ⟨tasks, ready, h⟩ := l.await_eq t ps
  rw [h]
  exact .beside rfl rfl rfl rfl rfl

theorem remove (l : Loader) (h : HandleId) : Still l (l.remove h) := by
  unfold Loader.remove
  split
  · exact refl l
  · exact ⟨rfl, rfl, rfl, fun t => t.remove h _, fun _ => Registry.mem_of_mem_remove, fun _ => id⟩

theorem closeCache (l : Loader) : Still l l.closeCache := by
  have all : ∀ (ts : List Ticket) (l : Loader), Still l (ts.foldl abortEntry l) := by
    intro ts
    induction ts with
    | nil => exact refl
    | cons t rest ih =>
      intro l
      exact ((drop l t.chunk).trans (settlePromise _ _ _)).trans (ih (l.abortEntry t))
  exact all _ l

/-- Fetches that end and shutdowns that go on. -/
theorem unloads (h : Unloads l l') : Still l l' := by
  obtain ⟨fetches, closings, registry, jobs, rfl, hr, -⟩ := h
  rcases hr with rfl | rfl
  · exact .beside rfl rfl rfl rfl rfl
  · exact ⟨rfl, rfl, rfl, fun t => t.shut,
      fun h hm => by rw [← l.registry.handles_shut]; exact hm, fun _ => id⟩

end Still

theorem attempts_redeem (l : Loader) (t : Ticket) (e : LoadEvent) :
    (l.redeem t e).attempts = l.attempts := by
  unfold redeem
  split
  · obtain ⟨ready, log, hs⟩ := l.settleEntry_eq t e
    rw [hs]
  · rfl

namespace Earned

theorem still (i : Earned told known l) (s : Still l l') : Earned told known l' where
  wired := by rw [s.wiring]; exact i.wired
  redeems := by rw [s.attempts]; exact i.redeems
  placed := by rw [s.attempts, s.handles]; exact i.placed
  tidy := s.tidy i.tidy
  complete := by
    rintro h x ⟨hm, hx⟩
    rw [s.handles] at hx
    exact i.complete h x ⟨s.registry h hm, hx⟩
  loaded := by
    rw [s.attempts]
    exact fun k hk => i.loaded k (s.loaded k hk)

/-- More handles may have told of a load than is needed. -/
theorem mono (i : Earned told known l) {told' : HandleId → Prop} (h : ∀ k, told k → told' k) :
    Earned told' known l where
  wired := i.wired
  redeems := i.redeems
  placed := i.placed
  tidy := i.tidy
  complete := fun k x hx hl => h k (i.complete k x hx hl)
  loaded := by
    intro k hk
    rcases i.loaded k hk with hk | ⟨a, x, ha, hx, ht⟩
    · exact .inl hk
    · exact .inr ⟨a, x, ha, hx, h _ ht⟩

/-! ## §2 Handles -/

/-- A handle is made that is not registered. -/
theorem make (i : Earned told known l) (handle : Handle) :
    Earned told known { l with handles := l.handles.add handle } where
  wired := i.wired
  redeems := i.redeems
  placed := by
    intro a x ha
    obtain ⟨y, hy⟩ := i.placed a x ha
    exact ⟨y, Table.get?_add_of_some hy handle⟩
  tidy := i.tidy.add handle
  complete := by
    rintro h x ⟨hm, hx⟩
    obtain ⟨y, hy⟩ := i.tidy.exists_of_mem hm
    have hxy := hx.symm.trans (Table.get?_add_of_some hy handle)
    cases hxy
    exact i.complete h x ⟨hm, hy⟩
  loaded := i.loaded

/-- A handle changes; if it is complete then, it was so before, or it has told of a load. -/
theorem change (i : Earned told known l) (h : HandleId) {f : Handle → Handle}
    (hf : ∀ x, (f x).url = x.url)
    (hl : ∀ x, l.Holds h x → (f x).loading = false → x.loading = false ∨ told h) :
    Earned told known (l.changeHandle h f) where
  wired := i.wired
  redeems := i.redeems
  placed := by
    intro a x ha
    obtain ⟨y, hy⟩ := i.placed a x ha
    exact Table.Kept.update h f _ y hy
  tidy := i.tidy.update h hf
  complete := by
    rintro k x' ⟨hm, hx'⟩ hload
    change (l.handles.update h f).get? k = some x' at hx'
    rw [Table.get?_update] at hx'
    split at hx'
    · rename_i hk
      subst hk
      obtain ⟨x, hx, rfl⟩ := Option.map_eq_some_iff.mp hx'
      rcases hl x ⟨hm, hx⟩ hload with hload | ht
      · exact i.complete h x ⟨hm, hx⟩ hload
      · exact ht
    · exact i.complete k x' ⟨hm, hx'⟩ hload
  loaded := i.loaded

/-- A load begins on a handle that is there. -/
theorem begin (i : Earned told known l) {x : Attempt} {t : Ticket} (hd : x.done = .redeem t)
    (ht : t.chunk = x.chunk) (hx : ∃ y, l.handles.get? x.handle = some y) :
    Earned told known { l with attempts := l.attempts.add x } where
  wired := i.wired
  redeems := by
    intro a y hy
    rw [Table.get?_add] at hy
    split at hy
    · cases hy
      exact ⟨t, hd, ht⟩
    · exact i.redeems a y hy
  placed := by
    intro a y hy
    rw [Table.get?_add] at hy
    split at hy
    · cases hy
      exact hx
    · exact i.placed a y hy
  tidy := i.tidy
  complete := i.complete
  loaded := by
    intro k hk
    rcases i.loaded k hk with hk | ⟨a, y, ha, hy, ht⟩
    · exact .inl hk
    · exact .inr ⟨a, y, Table.get?_add_of_some ha x, hy, ht⟩

/-- A new handle is registered that waits for its outcome. -/
theorem enter (i : Earned told known l) {h : HandleId} {x : Handle} {url : String}
    (hx : l.handles.get? h = some x) (hurl : x.url = url) (hl : x.loading = true)
    (hnew : h ∉ l.registry.handles) :
    Earned told known { l with registry := l.registry.attach h url } where
  wired := i.wired
  redeems := i.redeems
  placed := i.placed
  tidy := (i.tidy.enter hnew ⟨x, hx, hurl⟩).1
  complete := by
    rintro k y ⟨hm, hy⟩ hload
    rcases Registry.mem_of_mem_attach hm with hm | rfl
    · exact i.complete k y ⟨hm, hy⟩ hload
    · cases hx.symm.trans hy
      rw [hl] at hload
      cases hload
  loaded := i.loaded

/-! ## §3 The end of loads -/

theorem detach (i : Earned told known l) {a : AttemptId} {x : Attempt}
    (ha : l.attempts.get? a = some x) {e : LoadEvent} (he : e.isLoad = true → told x.handle) :
    Earned told known (l.detach a x.handle e) := by
  obtain ⟨y, hy⟩ := i.placed a x ha
  obtain ⟨tidy, gone⟩ := tidy_registryAfter i.tidy hy e
  have still : ∀ b z, (l.attempts.update a ({ · with settled := true })).get? b = some z →
      ∃ z', l.attempts.get? b = some z' ∧ z.done = z'.done ∧ z.chunk = z'.chunk ∧
        z.handle = z'.handle := by
    intro b z hz
    rw [Table.get?_update] at hz
    split at hz
    · obtain ⟨z', hz', rfl⟩ := Option.map_eq_some_iff.mp hz
      exact ⟨z', hz', rfl, rfl, rfl⟩
    · exact ⟨z, hz, rfl, rfl, rfl⟩
  rw [detach_eq]
  refine
    { wired := i.wired
      redeems := fun b z hz => ?_
      placed := fun b z hz => ?_
      tidy := tidy.update x.handle fun _ => rfl
      complete := ?_
      loaded := fun k hk => ?_ }
  · obtain ⟨z', hz', hd, hc, -⟩ := still b z hz
    rw [hd, hc]
    exact i.redeems b z' hz'
  · obtain ⟨z', hz', -, -, hh⟩ := still b z hz
    obtain ⟨y', hy'⟩ := i.placed b z' hz'
    rw [hh]
    exact Table.Kept.update _ _ _ y' hy'
  · rintro k z ⟨hm, hz⟩ hload
    change (l.handles.update x.handle (·.release)).get? k = some z at hz
    rw [Table.get?_update] at hz
    split at hz
    · rename_i hk
      subst hk
      cases hl : e.isLoad with
      | true => exact he hl
      | false => exact absurd hm (gone hl)
    · exact i.complete k z ⟨mem_of_mem_registryAfter hm, hz⟩ hload
  · rcases i.loaded k hk with hk | ⟨b, z, hb, hz, ht⟩
    · exact .inl hk
    · obtain ⟨z', hz', hc, hh⟩ : ∃ z', (l.attempts.update a ({ · with settled := true })).get? b =
          some z' ∧ z'.chunk = z.chunk ∧ z'.handle = z.handle := by
        rw [Table.get?_update, hb]
        split
        · exact ⟨_, rfl, rfl, rfl⟩
        · exact ⟨z, rfl, rfl, rfl⟩
      exact .inr ⟨b, z', hz', hc.trans hz, by rw [hh]; exact ht⟩

theorem conclude (i : Earned told known l) {a : AttemptId} {x : Attempt}
    (ha : l.attempts.get? a = some x) {e : LoadEvent} (he : e.isLoad = true → told x.handle) :
    Earned told known (l.conclude a x e).1 := by
  obtain ⟨sink, log, refusal, hcon⟩ := l.conclude_shape a x e
  rw [hcon]
  exact (i.detach ha he).still (.beside rfl rfl rfl rfl rfl)

/-- A ticket is given back for a load that a handle has told of, if it is given back as loaded. -/
theorem redeem (i : Earned told known l) {a : AttemptId} {x : Attempt}
    (ha : l.attempts.get? a = some x) {t : Ticket} (ht : t.chunk = x.chunk) {e : LoadEvent}
    (he : e.isLoad = true → told x.handle) : Earned told known (l.redeem t e) := by
  unfold Loader.redeem
  split
  · cases hl : e.isLoad with
    | false => exact i.still (.settleEntry l t hl)
    | true =>
      have finished : Earned told known { l with cache := l.cache.finish t.chunk } := by
        refine { i with loaded := fun k hk => ?_ }
        rw [Cache.find?_finish] at hk
        split at hk
        · rename_i hkt
          exact .inr ⟨a, x, ha, by rw [hkt, ht], he hl⟩
        · exact i.loaded k hk
      simp only [settleEntry, hl, if_true]
      exact finished.still (.settlePromise _ _ _)
  · exact i.still (.beside rfl rfl rfl rfl rfl)

/-- A signal ends loads; one of a load comes from a handle that tells of it. -/
theorem signal (e : LoadEvent) (foreign : Option CallbackId) (waiting : List AttemptId)
    (i : Earned told known l)
    (he : e.isLoad = true → ∀ a ∈ waiting, ∀ x, l.attempts.get? a = some x → told x.handle) :
    Earned told known (Loader.signal e foreign waiting l).1 := by
  induction waiting generalizing l with
  | nil => cases foreign <;> exact i
  | cons a rest ih =>
    cases ha : l.attempts.get? a with
    | none =>
      simp only [Loader.signal, ha]
      exact i
    | some x =>
      cases hx : x.settled with
      | true =>
        simp only [Loader.signal, ha, hx, if_true]
        exact i
      | false =>
        have hex : e.isLoad = true → told x.handle := fun hl =>
          he hl a (List.mem_cons_self ..) x ha
        obtain ⟨t, hd, ht⟩ := i.redeems a x ha
        obtain ⟨sink, log, refusal, hcon⟩ := l.conclude_shape a x e
        have concluded := i.conclude ha hex
        simp only [hcon] at concluded
        cases refusal with
        | some f =>
          simp only [Loader.signal, ha, hx, hcon, Bool.false_eq_true, if_false]
          exact concluded
        | none =>
          have attempts : ({ l.detach a x.handle e with sink, log } : Loader).attempts =
              l.attempts.update a ({ · with settled := true }) := by rw [detach_eq]
          have row : ({ l.detach a x.handle e with sink, log } : Loader).attempts.get? a =
              some { x with settled := true } := by
            rw [attempts, Table.get?_update, if_pos rfl, ha]
            rfl
          simp only [Loader.signal, ha, hx, hcon, hd, Bool.false_eq_true, if_false]
          refine ih (concluded.redeem row ht hex) fun hl b hb y hy => ?_
          rw [attempts_redeem, attempts, Table.get?_update] at hy
          split at hy
          · obtain ⟨z, hz, rfl⟩ := Option.map_eq_some_iff.mp hy
            exact he hl b (List.mem_cons_of_mem a hb) z hz
          · exact he hl b (List.mem_cons_of_mem a hb) y hy

theorem abortAll (attempts : List AttemptId) (i : Earned told known l) :
    Earned told known (Loader.abortAll attempts l).1 :=
  abortAll_keeps (fun _ a i => i.signal _ none [a] nofun) attempts i

/-! ## §4 The beginning of loads -/

/-- A load begins on its own handle, which is registered and waits. -/
theorem load_unfound (i : Earned told known l) (t : Ticket) {url : String}
    (hf : l.findHandle t.chunk url = none) :
    Earned told known (l.load t.chunk url (.redeem t)).1 ∧
      ∀ h a, (l.load t.chunk url (.redeem t)).2 ≠ .ok (h, some a) := by
  have made := i.make (l.madeHandle t.chunk url)
  have row : (l.handles.add (l.madeHandle t.chunk url)).get? l.handles.size =
      some (l.madeHandle t.chunk url) := Table.get?_add_size ..
  obtain ⟨sink, refusal, hc⟩ := count_eq
    { l with handles := l.handles.add (l.madeHandle t.chunk url) } handlesTotal
    ("mode", HandleMode.created.word)
  cases refusal with
  | some f =>
    rw [load_refused_of_unfound _ hf hc]
    exact ⟨made.still (.beside rfl rfl rfl rfl rfl), fun _ _ heq => nomatch heq⟩
  | none =>
    obtain ⟨log, fetches, asks, hl, -⟩ := load_taken_of_unfound (.redeem t) hf hc
    have begun := (made.begin (x := { chunk := t.chunk, handle := l.handles.size, done := .redeem t })
      rfl rfl ⟨_, row⟩).change l.handles.size (f := (·.observe l.attempts.size)) (fun _ => rfl)
      fun _ _ => .inl
    have observed : ((l.handles.add (l.madeHandle t.chunk url)).update l.handles.size
        (·.observe l.attempts.size)).get? l.handles.size =
          some ((l.madeHandle t.chunk url).observe l.attempts.size) := by
      rw [Table.update_add_size, Table.get?_add_size]
    rw [hl]
    exact ⟨(begun.enter observed rfl rfl i.tidy.size_not_mem).still (.beside rfl rfl rfl rfl rfl),
      fun _ _ heq => nomatch heq⟩

/-- A load begins on a registered handle; if that is complete, it has told of a load. -/
theorem load_found (i : Earned told known l) (t : Ticket) {url : String} {h : HandleId}
    (hf : l.findHandle t.chunk url = some h) :
    Earned told known (l.load t.chunk url (.redeem t)).1 ∧
      ∀ h a, (l.load t.chunk url (.redeem t)).2 = .ok (h, some a) → told h ∧
        ∀ x, (l.load t.chunk url (.redeem t)).1.attempts.get? a = some x → x.handle = h := by
  have hm := Registry.find?_mem hf
  obtain ⟨y, hy⟩ := i.tidy.exists_of_mem hm
  have begun := i.begin (x := { chunk := t.chunk, handle := h, done := .redeem t }) rfl rfl ⟨y, hy⟩
  cases hload : (l.handles.get? h).any (·.loading) with
  | true =>
    obtain ⟨sink, refusal, hc⟩ := count_eq l handlesTotal ("mode", HandleMode.adoptedLoading.word)
    cases refusal with
    | some f =>
      rw [load_refused_of_found _ hf (by simp [hload]) hc]
      exact ⟨i.still (.beside rfl rfl rfl rfl rfl), fun _ _ heq => nomatch heq⟩
    | none =>
      obtain ⟨log, hl⟩ := load_taken_of_loading (.redeem t) hf hload hc
      rw [hl]
      have observed := begun.change h (f := (·.observe l.attempts.size)) (fun _ => rfl)
        fun _ _ => .inl
      exact ⟨observed.still (.beside rfl rfl rfl rfl rfl), fun _ _ heq => nomatch heq⟩
  | false =>
    obtain ⟨sink, refusal, hc⟩ := count_eq l handlesTotal ("mode", HandleMode.adoptedComplete.word)
    cases refusal with
    | some f =>
      rw [load_refused_of_found _ hf (by simp [hload]) hc]
      exact ⟨i.still (.beside rfl rfl rfl rfl rfl), fun _ _ heq => nomatch heq⟩
    | none =>
      obtain ⟨log, hl⟩ := load_taken_of_complete (.redeem t) hf hload hc
      rw [hl]
      refine ⟨begun.still (.beside rfl rfl rfl rfl rfl), fun k a heq => ?_⟩
      cases heq
      rw [hy] at hload
      refine ⟨i.complete h y ⟨hm, hy⟩ (by simpa using hload), fun x hx => ?_⟩
      change (l.attempts.add _).get? l.attempts.size = some x at hx
      rw [Table.get?_add_size] at hx
      cases hx
      rfl

theorem load (i : Earned told known l) (t : Ticket) (url : String) :
    Earned told known (l.load t.chunk url (.redeem t)).1 ∧
      ∀ h a, (l.load t.chunk url (.redeem t)).2 = .ok (h, some a) → told h ∧
        ∀ x, (l.load t.chunk url (.redeem t)).1.attempts.get? a = some x → x.handle = h := by
  cases hf : l.findHandle t.chunk url with
  | none =>
    obtain ⟨earned, hne⟩ := i.load_unfound t hf
    exact ⟨earned, fun h a heq => absurd heq (hne h a)⟩
  | some h => exact i.load_found t hf

/-- An attempt is started. -/
theorem start (i : Earned told known l) (t : Ticket) : Earned told known (l.start t).1 := by
  obtain ⟨resolve, hw⟩ := i.wired
  cases hr : resolve t.chunk with
  | error f =>
    simp only [Loader.start, hw, fetch, hr]
    exact i.still (.abandon l t)
  | ok url =>
    obtain ⟨loaded, found⟩ := i.load t url
    cases hl : l.load t.chunk url (.redeem t) with
    | mk l₁ answer =>
      rw [hl] at loaded found
      rcases answer with f | ⟨h, _ | a⟩
      · simp only [Loader.start, hw, fetch, hr, hl]
        exact loaded.still (.abandon l₁ t)
      · simp only [Loader.start, hw, fetch, hr, hl]
        exact loaded
      · obtain ⟨ht, hx⟩ := found h a rfl
        have ended : Earned told known (l₁.settleLoad a (l₁.signalFrom h "load")).1 := by
          refine loaded.signal _ none [a] fun _ b hb x hbx => ?_
          cases List.mem_singleton.mp hb
          rw [hx x hbx]
          exact ht
        simp only [Loader.start, hw, fetch, hr, hl]
        cases hs : l₁.settleLoad a (l₁.signalFrom h "load") with
        | mk l₂ flow =>
          rw [hs] at ended
          cases flow with
          | through => exact ended
          | calls c left => exact ended
          | fails f => exact ended.still (.abandon l₂ t)

/-- A task asks for its chunks. -/
theorem collect (task : TaskId) (chunks : List ChunkId) (got : List PromiseId)
    (i : Earned told known l) : Earned told known (Loader.collect task got chunks l).1 :=
  collect_keeps (fun l chunk i => i.still (.request l chunk)) (fun _ t i => i.start t)
    (fun _ _ _ i => i.still (.beside rfl rfl rfl rfl rfl)) (fun l got i => i.still (.await l task got))
    (fun l _ i => i.still (.endTask l task _)) chunks got i

/-! ## §5 Stacks of work -/

/-- A report of no load is passed to the load that it is about. -/
theorem consult (i : Earned told known l) (chunk : ChunkId) {e : LoadEvent} (he : e.isLoad = false) :
    Earned told known (l.consult chunk e).1 := by
  obtain ⟨resolve, hw⟩ := i.wired
  simp only [Loader.consult, hw]
  split
  · exact i
  · exact i.signal e none _ fun hl => absurd hl (by simp [he])

theorem perform (i : Earned told known l) {frame : Frame} (hf : frame.Newsless) :
    Earned told known (l.perform frame).1 := by
  cases frame with
  | signal s e => exact i.signal e s.foreign s.waiting fun hl => absurd hl (by simp [show _ = _ from hf])
  | abort attempts => exact i.abortAll attempts
  | start t => exact i.start t
  | started t => exact i
  | hand chunk p => exact i.still (.beside rfl rfl rfl rfl rfl)
  | consult chunk e => exact i.consult chunk hf
  | settle t e =>
    unfold Loader.perform
    dsimp only
    split
    · exact i.still (.settleEntry l t hf)
    · exact i
  | shut c => exact i.still ((Still.closeCache l).trans (.unloads (.closeRegistry _ c)))
  | collect t got rest => exact i.collect t rest got

/-- Work that brings no news of a load. -/
theorem drive {frames : List Frame} (hf : ∀ f ∈ frames, f.Newsless) (i : Earned told known l) :
    Earned told known (Loader.drive frames l).1 :=
  drive_keeps (fun _ _ newsless i => i.perform newsless) (fun l t i => i.still (.abandon l t))
    (fun l t _ i => i.still (.endTask l t _))
    (fun l c _ _ i => i.still (.unloads (.setClosing l c _))) hf i

/-- A handle signals; if it is a load that it signals, it has told of one. -/
theorem deliver (i : Earned told known l) {h : HandleId} {x : Handle} {e : LoadEvent}
    (heard : ∀ a, x.Tells a → ∃ y, l.attempts.get? a = some y ∧ y.handle = h)
    (ht : e.type = "load" → told h) :
    Earned told known (l.drive [.signal (x.slotFor e.type) e]).1 := by
  have signalled : Earned told known
      (Loader.signal e (x.slotFor e.type).foreign (x.slotFor e.type).waiting l).1 := by
    refine i.signal _ _ _ fun hl a ha y hy => ?_
    have hload : e.type = "load" := by simpa [LoadEvent.isLoad] using hl
    rw [Handle.slotFor, if_pos hload] at ha
    obtain ⟨z, hz, hzh⟩ := heard a (.inl ha)
    cases hy.symm.trans hz
    rw [hzh]
    exact ht hload
  rw [fst_drive_single]
  exact signalled

end Earned

/-! ## §6 Operations and jobs -/

namespace Earned

variable {asked : ChunkId → Prop} {resolve : ChunkId → Except Fault String}

theorem report (i : Earned told known l) (chunk : ChunkId) {e : LoadEvent} (he : e.isLoad = false) :
    Earned told known ((l.report chunk e).1.drive (l.report chunk e).2).1 := by
  unfold Loader.report
  split
  · exact i.still (.beside rfl rfl rfl rfl rfl)
  · refine i.drive fun f hf => ?_
    simp only [List.mem_cons, List.not_mem_nil, or_false] at hf
    rcases hf with rfl | rfl
    · exact he
    · exact he

theorem dispatch (i : Earned told known l) (t : Traced asked resolve l) (h : HandleId)
    (type : String) (ht : ∀ x, l.handles.get? h = some x → type = "load" → told h) :
    Earned told known (l.drive (l.dispatch h type)).1 := by
  unfold Loader.dispatch
  split
  · rename_i x hx
    exact i.deliver (e := l.signalFrom h type) (t.heard h x · hx) (ht x hx)
  · exact i

theorem invoke (i : Earned told known l) (t : Traced asked resolve l) {op : Operation}
    (hop : op.Outer) (hu : (Move.invoke op).Unplanted resolve) (hs : ¬(Move.invoke op).Assigns)
    (hn : (Move.invoke op).Newsless)
    (ht : ∀ h x, Run.Delivers { loader := l } h "load" (.invoke op) → l.handles.get? h = some x →
      told h) : Yields (Earned told known) (l.invoke op) := by
  have inner : ∀ {l₁ : Loader}, Inner l l₁ → Earned told known l₁ := by
    rintro l₁ ⟨_, _, _, rfl⟩
    exact i.still (.beside rfl rfl rfl rfl rfl)
  cases op with
  | request chunk =>
    have requested := i.still (.request l chunk)
    unfold Loader.invoke
    dsimp only
    split
    · rename_i hr
      rw [hr] at requested
      exact requested
    · rename_i hr
      rw [hr] at requested
      exact requested.still (.beside rfl rfl rfl rfl rfl)
    · rename_i hr
      rw [hr] at requested
      exact requested.drive (by simp [Frame.Newsless])
  | mark chunk e => exact i.still (.mark l chunk hn)
  | report chunk e => exact i.report chunk hn
  | reportLater chunk e =>
    simp only [Loader.invoke]
    split
    · exact i.still (.beside rfl rfl rfl rfl rfl)
    · exact i
  | redeem t e => exact hop.elim
  | closeCache => exact hop.elim
  | load chunk url done => exact hop.elim
  | settle chunk e =>
    simp only [Loader.invoke]
    split
    · exact i
    · exact i.drive fun f hf => by
        cases List.mem_singleton.mp hf
        exact hn
  | closeLoads => exact i.drive (by simp [Frame.Newsless])
  | closeRegistry => exact i.still (.unloads ((Unloads.newClosing l).trans (.closeRegistry _ _)))
  | close =>
    simp only [Loader.invoke]
    split
    · exact i
    · have closing : Earned told known l.closing := i.still (.beside rfl rfl rfl rfl rfl)
      exact closing.drive (by simp [Frame.Newsless])
  | cancelClosing c => exact i.still (.unloads (.cancelClosing l c))
  | clientClosed c problem => exact i.still (.unloads (.clientClosed l c problem))
  | plant handle => exact hu.elim
  | create url tag => exact i.make _
  | createPlain url tag => exact i.make _
  | attach h => exact hu.elim
  | remove h => exact i.still (.remove l h)
  | complete url type =>
    simp only [Loader.invoke]
    split
    · exact i
    · rename_i h hf
      refine i.dispatch t h type fun x hx he => ht h x ?_ hx
      subst he
      exact .complete hf
  | dispatch h type =>
    refine i.dispatch t h type fun x hx he => ht h x ?_ hx
    subst he
    exact .dispatch
  | notify s e =>
    refine i.drive fun f hf => ?_
    cases List.mem_singleton.mp hf
    exact hn
  | assign h onLoad onError loading => exact absurd trivial hs
  | ensure chunks => exact i.still (.beside rfl rfl rfl rfl rfl)
  | cancelPromise p => exact inner (l.inner_cancelPromise p)
  | cancelTask t => exact inner (l.inner_cancelTask t)
  | respond url r => exact i.still (.unloads (.respond l url r))
  | prompt url r => cases r <;> exact i.still (.beside rfl rfl rfl rfl rfl)

/-- The client's answer is kept in the handle, and then the handle signals. -/
theorem takeAnswer (i : Earned told known l) (t : Traced asked resolve l) (f : FetchId)
    (ht : ∀ h reply x, l.fetches.get? f = some { handle := h, stage := .answered reply } →
      l.handles.get? h = some x → reply.signal = "load" → told h) :
    Earned told known ((l.takeAnswer f).1.drive (l.takeAnswer f).2).1 := by
  cases hf : l.fetches.get? f with
  | none =>
    simp only [Loader.takeAnswer, hf]
    exact i
  | some y =>
    obtain ⟨h, stage⟩ := y
    cases stage with
    | answered reply =>
      cases hx : l.handles.get? h with
      | none =>
        simp only [Loader.takeAnswer, hf, hx]
        exact i
      | some x =>
        obtain ⟨log, htake⟩ := takeAnswer_record hf hx
        have recorded : Earned told known
            { l with
              handles := l.handles.update h (·.record reply.record)
              fetches := l.fetches.update f ({ · with stage := .over })
              ready := l.ready ++ .forget f :: l.endings f
              log := l.log ++ log } :=
          (i.change h (f := (·.record reply.record)) (fun _ => rfl) fun _ _ => .inl).still
            (.beside rfl rfl rfl rfl rfl)
        rw [htake]
        exact recorded.deliver (e := l.signalFrom h reply.signal) (t.heard h x · hx)
          (ht h reply x hf hx)
    | stopping =>
      simp only [Loader.takeAnswer, hf]
      exact i.still (.unloads (.endFetch l f))
    | _ =>
      simp only [Loader.takeAnswer, hf]
      exact i

theorem runJob (i : Earned told known l) (t : Traced asked resolve l) {j : Job} {rest : List Job}
    (hq : l.ready = j :: rest) (hu : l.Unreported)
    (ht : ∀ h x, Run.Delivers { loader := l } h "load" .runJob → l.handles.get? h = some x →
      told h) :
    Earned told known
      (({ l with ready := rest }.runJob j).1.drive ({ l with ready := rest }.runJob j).2).1 := by
  have popped : Earned told known { l with ready := rest } :=
    i.still (.beside rfl rfl rfl rfl rfl)
  have inner : ∀ {l₁ : Loader}, Inner l l₁ → Earned told known l₁ := by
    rintro l₁ ⟨_, _, _, rfl⟩
    exact i.still (.beside rfl rfl rfl rfl rfl)
  cases j with
  | report chunk e =>
    exact popped.report chunk (hu chunk e (by rw [hq]; exact List.mem_cons_self ..))
  | startTask task =>
    simp only [Loader.runJob, Loader.startTask]
    split
    · exact popped.still (.endTask _ task _)
    · exact popped.drive (by simp [Frame.Newsless])
    · exact popped
  | childSettled task p => exact inner (l.inner_childSettled rest task p)
  | wakeTask task => exact inner (l.inner_wakeTask rest task)
  | ask f =>
    simp only [Loader.runJob, Loader.ask]
    split
    · rename_i h hf
      split
      · rename_i reply hp
        have staged : Earned told known ({ l with ready := rest }.setStage f (.answered reply)) :=
          popped.still (.beside rfl rfl rfl rfl rfl)
        refine staged.takeAnswer (t.congr rfl rfl rfl rfl rfl) f fun h' reply' x hf' hx hl => ?_
        -- The answer that is taken is the one that was given.
        cases hf'.symm.trans (Table.get?_update_self hf _)
        exact ht h x (.prompted rfl hq hf hp hl) hx
      · exact popped.still (.beside rfl rfl rfl rfl rfl)
    · exact popped.still (.unloads (.endFetch _ f))
    · exact popped
  | answer f =>
    exact popped.takeAnswer (t.congr rfl rfl rfl rfl rfl) f fun h reply x hf hx hl =>
      ht h x (.answered rfl hq hf hl) hx
  | forget f => exact popped
  | fetchEnded c f => exact popped.still (.unloads (.fetchEnded _ c f))
  | wakeClosing c => exact popped.still (.unloads (.wakeClosing _ c))

end Earned

end Loader

/-! ## §7 Uses -/

namespace Run

open Loader (Traced Unreported Earned)

variable {asked : ChunkId → Prop} {resolve : ChunkId → Except Fault String} {r : Run} {m : Move}

/-- The handle has signalled a load in the course of a history. -/
def Told (r : Run) (ms : List Move) (h : HandleId) : Prop :=
  ∃ pre m post x, ms = pre ++ m :: post ∧ (r.steps pre).Delivers h "load" m ∧
    (r.steps pre).loader.handles.get? h = some x

/-- The move asks for none but the given chunks, and leaves it to handles to tell of loads. -/
structure Honest (asked : ChunkId → Prop) (resolve : ChunkId → Except Fault String) (m : Move) :
    Prop where
  outer : m.Outer
  asks : m.Asks asked
  unplanted : m.Unplanted resolve
  unassigned : ¬m.Assigns
  newsless : m.Newsless

theorem earned_step {told : HandleId → Prop} {known : ChunkId → Prop} (rested : r.Rested asked)
    (i : Earned told known r.loader) (t : Traced asked resolve r.loader)
    (u : r.loader.Unreported) (hm : Honest asked resolve m)
    (ht : ∀ h x, r.Delivers h "load" m → r.loader.handles.get? h = some x → told h) :
    Earned told known (r.step m).loader := by
  refine rested.step_keeps (P := Earned told known) i ?invoked ?ran ?fired ?clocked ?reordered
    ?replanned
  case invoked =>
    rintro op rfl
    refine i.invoke t hm.outer hm.unplanted hm.unassigned hm.newsless fun h x hd hx => ht h x ?_ hx
    cases hd with
    | dispatch => exact .dispatch
    | complete hf => exact .complete hf
  case ran =>
    rintro j rest rfl hidle hready
    refine i.runJob t hready u fun h x hd hx => ht h x ?_ hx
    cases hd with
    | answered hi hq hf hs => exact .answered hidle hq hf hs
    | prompted hi hq hf hp hs => exact .prompted hidle hq hf hp hs
  case fired =>
    rintro target l work rfl hfire
    obtain ⟨w, hw, heq⟩ := Option.map_eq_some_iff.mp hfire
    cases heq
    have ready : Earned told known ({ r.loader with now := w.due }.disarm w.attempt) :=
      i.still (.beside rfl rfl rfl rfl rfl)
    refine ready.drive fun f hf => ?_
    cases List.mem_singleton.mp hf
    rfl
  case clocked => exact fun now _ => i.still (.beside rfl rfl rfl rfl rfl)
  case reordered => exact fun active _ _ => i.still (.beside rfl rfl rfl rfl rfl)
  case replanned =>
    rintro resolve' hasAsset rfl
    have hres : resolve' = resolve := hm.unplanted
    subst hres
    have wiring : (r.loader.replan resolve' hasAsset).plan.wiring = r.loader.plan.wiring := by
      simp [Loader.replan, t.wired]
    exact i.still ⟨wiring, rfl, rfl, id, fun _ => id, fun _ => id⟩

theorem Told.concat {ms : List Move} {h : HandleId} (ht : r.Told ms h) (m : Move) :
    r.Told (ms ++ [m]) h := by
  obtain ⟨pre, m', post, x, rfl, hd, hx⟩ := ht
  exact ⟨pre, m', post ++ [m], x, by simp, hd, hx⟩

/-- Handles keep their addresses through honest moves. -/
theorem Rested.has {ms : List Move} (rested : r.Rested asked)
    (hms : ∀ m ∈ ms, Honest asked resolve m) {h : HandleId} {url : String}
    (has : Registry.Has r.loader.handles h url) :
    Registry.Has (r.steps ms).loader.handles h url := by
  have reach : Reachable (fun _ m => Honest asked resolve m) r (r.steps ms) :=
    Reachable.start.steps ms fun _ m hm => hms m hm
  exact (Rested.of_reachable (I := fun l => Registry.Has l.handles h url)
    (fun _ _ hm => ⟨hm.outer, hm.asks⟩) (fun _ _ _ _ _ _ act => act.outlives h url) rested has
    reach).2

/-- Through a history of honest moves, what is loaded is so because a handle has told of a load. -/
theorem earned_steps {known : ChunkId → Prop} (rested : r.Rested asked)
    (i : Earned (fun _ => False) known r.loader) (t : Traced asked resolve r.loader)
    (u : r.loader.Unreported) {ms : List Move} (hms : ∀ m ∈ ms, Honest asked resolve m) :
    Rested asked (r.steps ms) ∧ Traced asked resolve (r.steps ms).loader ∧
      (r.steps ms).loader.Unreported ∧ Earned (r.Told ms) known (r.steps ms).loader := by
  induction ms using List.reverseRecOn with
  | nil => exact ⟨rested, t, u, i.mono fun _ => False.elim⟩
  | append_singleton ms m ih =>
    obtain ⟨rested', t', u', i'⟩ := ih fun m' hm' => hms m' (List.mem_append_left _ hm')
    have honest := hms m (List.mem_append_right _ (List.mem_singleton.mpr rfl))
    obtain ⟨acts, rested''⟩ := rested'.acts honest.outer honest.asks
    rw [steps_concat]
    refine ⟨rested'', ?_, ?_, ?_⟩
    · exact acts.keeps (fun _ _ _ act => act.traced honest.unplanted honest.unassigned) rested'.whole t'
    · exact acts.keeps (fun _ _ _ act => act.unreported honest.newsless) rested'.whole u'
    · exact earned_step rested' (i'.mono fun _ ht => ht.concat m) t' u' honest fun h x hd hx =>
        ⟨ms, m, [], x, rfl, hd, hx⟩

/-- As a loader is opened, what is loaded was installed, and nothing has been made. -/
theorem earned_opened (asked : ChunkId → Prop) (policy : Policy)
    (resolve : ChunkId → Except Fault String) (hasAsset : ChunkId → Bool) (cache : Cache)
    {registry : Registry} (hr : registry.handles = []) (sink : Metrics.Sink) :
    Earned (fun _ => False) (fun k => cache.find? k = some .loaded)
        (.whole policy resolve hasAsset cache registry sink) ∧
      Traced asked resolve (.whole policy resolve hasAsset cache registry sink) ∧
      (Loader.whole policy resolve hasAsset cache registry sink).Unreported := by
  have tidy : registry.Tidy {} := .of_empty hr
  have noHandle : ∀ h x,
      ¬(Loader.whole policy resolve hasAsset cache registry sink).Holds h x := fun h x hx => by
    have hm : h ∈ registry.handles := hx.1
    rw [hr] at hm
    cases hm
  have noRow : ∀ {α : Type} (n : Nat) (x : α), ({} : Table α).get? n ≠ some x := fun n x hx => by
    simp [Table.get?] at hx
  refine ⟨?_, ?_, fun k e hm => absurd hm List.not_mem_nil⟩
  · exact
      { wired := ⟨resolve, rfl⟩
        redeems := fun a x hx => absurd hx (noRow a x)
        placed := fun a x hx => absurd hx (noRow a x)
        tidy
        complete := fun h x hx => absurd hx (noHandle h x)
        loaded := fun k hk => .inl hk }
  · exact
      { wired := rfl
        tidy
        origin := fun h x hx => absurd hx (noHandle h x)
        fits := fun a x hx => absurd hx (noRow a x)
        heard := fun h x a hx => absurd hx (noRow h x) }

/--
No two of the chunks asked for have one address. A chunk that was not installed as loaded is
loaded only after some handle that a load of it waited for has signalled a load, under the
address of a chunk that reads like it: its own address, unless the number or the name that is
written alike was asked for too. Loads of chunks that do not read alike never have one handle.
-/
theorem origin_of_loaded {policy : Policy} {hasAsset : ChunkId → Bool}
    {installed : List (ChunkId × String)} {cache : Cache} {registry : Registry}
    {sink : Metrics.Sink} {ms : List Move} (hc : Cache.seed installed = .ok cache)
    (hr : registry.handles = [])
    (apart : ∀ k k' url, asked k → asked k' → resolve k = .ok url → resolve k' = .ok url → k = k')
    (hms : ∀ m ∈ ms, Honest asked resolve m) :
    let opened : Run := { loader := .whole policy resolve hasAsset cache registry sink }
    (∀ chunk, (opened.steps ms).loader.cache.find? chunk = some .loaded →
      cache.find? chunk = some .loaded ∨
        ∃ pre m post h x, ms = pre ++ m :: post ∧ (opened.steps pre).Delivers h "load" m ∧
          (opened.steps pre).loader.handles.get? h = some x ∧
          (∃ a y, (opened.steps ms).loader.attempts.get? a = some y ∧ y.chunk = chunk ∧
            y.handle = h) ∧
          ∃ k, asked k ∧ k.text = chunk.text ∧ resolve k = .ok x.url) ∧
      ∀ a b x y, (opened.steps ms).loader.attempts.get? a = some x →
        (opened.steps ms).loader.attempts.get? b = some y → x.handle = y.handle →
          x.chunk.text = y.chunk.text := by
  intro opened
  have rested : opened.Rested asked := .opened asked policy resolve hasAsset hc registry sink
  obtain ⟨earned₀, traced₀, unreported₀⟩ :=
    earned_opened asked policy resolve hasAsset cache hr sink
  obtain ⟨-, traced, -, earned⟩ := earned_steps rested earned₀ traced₀ unreported₀ hms
  refine ⟨fun chunk hl => ?_, fun a b x y hx hy heq => ?_⟩
  · refine (earned.loaded chunk hl).imp_right ?_
    rintro ⟨a, y, hy, hchunk, pre, m, post, x, hsplit, hd, hx⟩
    obtain ⟨k, url, hk, htext, hres, has⟩ := traced.fits a y hy
    refine ⟨pre, m, post, y.handle, x, hsplit, hd, hx, ⟨a, y, hy, hchunk, rfl⟩, k, hk,
      htext.trans (congrArg ChunkId.text hchunk), ?_⟩
    -- The handle has had its address since it signalled.
    have honest : ∀ m' ∈ pre, Honest asked resolve m' := fun m' hm' =>
      hms m' (by rw [hsplit]; exact List.mem_append_left _ hm')
    have honest' : ∀ m' ∈ m :: post, Honest asked resolve m' := fun m' hm' =>
      hms m' (by rw [hsplit]; exact List.mem_append_right _ hm')
    have there : Rested asked (opened.steps pre) :=
      (earned_steps rested earned₀ traced₀ unreported₀ honest).1
    have later := there.has honest' ⟨x, hx, rfl⟩
    rw [← steps_append, ← hsplit] at later
    obtain ⟨z, hz, hurl⟩ := has
    rw [hres, ← hurl, later.url_eq hz]
  · obtain ⟨k, url, hk, htext, hres, has⟩ := traced.fits a x hx
    obtain ⟨k', url', hk', htext', hres', z, hz, hurl⟩ := traced.fits b y hy
    rw [heq] at has
    have same : url' = url := hurl.symm.trans (has.url_eq hz)
    rw [← htext, ← htext', apart k k' url hk hk' hres (by rw [← same]; exact hres')]

/-! ### Twins -/

/-- Addresses of the number one and of the name that is written like it. -/
def twinAddress (k : ChunkId) : Except Fault String :=
  if k = .number 1 then .ok "/n.css" else if k = .name "1" then .ok "/s.css" else .error .closed

theorem twinAddress_apart {k k' : ChunkId} {url : String} (hk : twinAddress k = .ok url)
    (hk' : twinAddress k' = .ok url) : k = k' := by
  have back : ∀ {k}, twinAddress k = .ok url →
      k = .number 1 ∧ url = "/n.css" ∨ k = .name "1" ∧ url = "/s.css" := by
    intro k hk
    unfold twinAddress at hk
    split at hk
    · exact .inl ⟨‹_›, (Except.ok.inj hk).symm⟩
    · split at hk
      · exact .inr ⟨‹_›, (Except.ok.inj hk).symm⟩
      · cases hk
  rcases back hk with ⟨rfl, hurl⟩ | ⟨rfl, hurl⟩
  · rcases back hk' with ⟨rfl, -⟩ | ⟨-, hurl'⟩
    · rfl
    · exact absurd (hurl.symm.trans hurl') (by decide)
  · rcases back hk' with ⟨-, hurl'⟩ | ⟨rfl, -⟩
    · exact absurd (hurl.symm.trans hurl') (by decide)
    · rfl

/--
The number and the name are both requested. The name's load takes the number's handle for its
own, since both have one tag, and a load of the number's address makes both loaded. No handle has
the name's address.
-/
theorem twin_loaded_by_other :
    let opened : Run :=
      { loader := .whole {} twinAddress (fun _ => true) {} (.document [] 0) .silent }
    let ms : List Move :=
      [.invoke (.request (.number 1)), .invoke (.request (.name "1")),
        .invoke (.complete "/n.css" "load")]
    (∀ k k' url, twinAddress k = .ok url → twinAddress k' = .ok url → k = k') ∧
      (∀ m ∈ ms, Honest (fun _ => True) twinAddress m) ∧
      (opened.steps (ms.take 2)).loader.cache.state (.name "1") = .inFlight ∧
      (opened.steps ms).loader.cache.state (.name "1") = .loaded ∧
      (∀ x ∈ (opened.steps ms).loader.handles.rows, some x.url ≠ (twinAddress (.name "1")).toOption) ∧
      (opened.steps ms).loader.attempts.rows.map (fun x => (x.chunk, x.handle)) =
        [(.number 1, 0), (.name "1", 0)] := by
  refine ⟨fun _ _ _ => twinAddress_apart, fun m hm => ?_, by decide, by decide, by decide,
    by decide⟩
  simp only [List.mem_cons, List.not_mem_nil, or_false] at hm
  rcases hm with rfl | rfl | rfl
  all_goals exact ⟨trivial, trivial, trivial, id, trivial⟩

/-- There the name owes its load to a handle under the number's address. -/
theorem origin_of_twin :
    let opened : Run :=
      { loader := .whole {} twinAddress (fun _ => true) {} (.document [] 0) .silent }
    let ms : List Move :=
      [.invoke (.request (.number 1)), .invoke (.request (.name "1")),
        .invoke (.complete "/n.css" "load")]
    ∃ pre m post h x, ms = pre ++ m :: post ∧ (opened.steps pre).Delivers h "load" m ∧
      (opened.steps pre).loader.handles.get? h = some x ∧
      (∃ a y, (opened.steps ms).loader.attempts.get? a = some y ∧ y.chunk = .name "1" ∧
        y.handle = h) ∧
      ∃ k, (k = .number 1 ∨ k = .name "1") ∧ k.text = (ChunkId.name "1").text ∧
        twinAddress k = .ok x.url := by
  intro opened ms
  have honest : ∀ m ∈ ms, Honest (fun k => k = .number 1 ∨ k = .name "1") twinAddress m := by
    intro m hm
    simp only [ms, List.mem_cons, List.not_mem_nil, or_false] at hm
    rcases hm with rfl | rfl | rfl
    · exact ⟨trivial, .inl rfl, trivial, id, trivial⟩
    · exact ⟨trivial, .inr rfl, trivial, id, trivial⟩
    · exact ⟨trivial, trivial, trivial, id, trivial⟩
  have hc : Cache.seed [] = .ok {} := rfl
  have origin := (@origin_of_loaded _ twinAddress {} (fun _ => true) [] {} (.document [] 0) .silent
    ms hc rfl (fun _ _ _ _ _ => twinAddress_apart) honest).1 (.name "1") (by decide)
  rcases origin with installed | loaded
  · exact absurd installed (by decide)
  · unfold opened
    exact loaded

end Run

end SingleFlight
