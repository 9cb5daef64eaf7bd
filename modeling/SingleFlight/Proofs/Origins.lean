/-
SingleFlight.Proofs.Origins — whom handles were made for, and what is reported.

A chunk's load finds a handle by the chunk's address or by its tag, and a tag
shows a chunk only as it reads. So the handle of a load was made for a chunk
that reads like the load's own: for that chunk itself, or for the number that is
written like this name, or the name that is written like this number.

* `Loader.Traced`, with `Change.traced` and `Act.traced` — for whom handles were
  made, which handles loads wait for, and which loads handles tell.
* `Change.outlives`, `Act.outlives` — handles are made and changed, and none is lost.
* `Loader.Reports`, with `Change.reports` and `Act.reports` — what the reports in
  the queue say; `Loader.Unreported` is the case that none brings news of a load.

`SingleFlight.Proofs.Earned` goes on from here to what makes a chunk loaded.
-/
import SingleFlight.Proofs.Histories
import SingleFlight.Proofs.Late
import SingleFlight.Proofs.Turns

namespace SingleFlight

/-- The move brings no news of a load; what handles signal is their own affair. -/
def Move.Newsless : Move → Prop
  | .invoke (.mark _ e) => e ≠ .loaded
  | .invoke (.report _ e) => e.isLoad = false
  | .invoke (.reportLater _ e) => e.isLoad = false
  | .invoke (.settle _ e) => e.isLoad = false
  | .invoke (.notify _ e) => e.isLoad = false
  | _ => True

/-- A load is told by one of the handle's slots. -/
def Handle.Tells (x : Handle) (a : AttemptId) : Prop :=
  a ∈ x.onLoad.waiting ∨ a ∈ x.onError.waiting

theorem Handle.tells_observe {x : Handle} {a b : AttemptId} (h : (x.observe b).Tells a) :
    a = b ∨ x.Tells a := by
  rcases h with h | h
  · exact (List.mem_cons.mp h).imp_right .inl
  · exact (List.mem_cons.mp h).imp_right .inr

theorem Handle.not_tells_release {x : Handle} {a : AttemptId} : ¬x.release.Tells a := by
  rintro (h | h)
  · cases h
  · cases h

/-! ## §1 Handles and whom they were made for -/

theorem Registry.exists_of_first? {r : Registry} {table : Table Handle} {p : Handle → Bool}
    {h : HandleId} (hf : r.first? table p = some h) : ∃ x, table.get? h = some x ∧ p x = true :=
  (Option.any_eq_true _ _).mp (List.find?_some (p := fun h => (table.get? h).any p) hf)

/-- What a look-up finds has the address or the tag, if handles are kept under their addresses. -/
theorem Registry.exists_of_find? {r : Registry} {table : Table Handle} {url tag : String}
    {h : HandleId}
    (filed : ∀ {entries client}, r = .keyed entries client →
      ∀ url h, (url, h) ∈ entries → Has table h url)
    (hf : r.find? table url (some tag) = some h) :
    ∃ x, table.get? h = some x ∧ (x.url = url ∨ x.tag = some tag) := by
  cases r with
  | document hs n =>
    obtain ⟨x, hx, ha⟩ := exists_of_first? hf
    exact ⟨x, hx, by simpa [Handle.answers] using ha⟩
  | keyed entries client =>
    simp only [find?, Option.isSome_some, if_true] at hf
    split at hf
    · rename_i h' hg
      cases hf
      obtain ⟨x, hx, hurl⟩ := filed rfl url h (Pairs.mem_of_get? hg)
      exact ⟨x, hx, .inl hurl⟩
    · obtain ⟨x, hx, ha⟩ := exists_of_first? hf
      exact ⟨x, hx, .inr (by simpa using ha)⟩

theorem Registry.matching_of_find? {r : Registry} {table : Table Handle} {url tag : String}
    {h : HandleId} (t : r.Tidy table) (hf : r.find? table url (some tag) = some h) :
    Matching table r.handles url tag h :=
  ⟨find?_mem hf, exists_of_find? (fun hr => by cases hr; exact t.2) hf⟩

/-- Handles of the one table are in the other, under the same addresses. -/
def Table.Outlives (table' table : Table Handle) : Prop :=
  ∀ h url, Registry.Has table h url → Registry.Has table' h url

theorem Table.outlives_add (table : Table Handle) (handle : Handle) :
    (table.add handle).Outlives table := by
  rintro h url ⟨x, hx, hurl⟩
  exact ⟨x, get?_add_of_some hx handle, hurl⟩

theorem Table.outlives_update (table : Table Handle) (h : HandleId) {f : Handle → Handle}
    (hf : ∀ x, (f x).url = x.url) : (table.update h f).Outlives table := by
  rintro k url ⟨x, hx, hurl⟩
  by_cases hk : h = k
  · exact ⟨f x, by rw [get?_update, if_pos hk, hx]; rfl, (hf x).trans hurl⟩
  · exact ⟨x, by rw [get?_update, if_neg hk]; exact hx, hurl⟩

namespace Loader

/-- A handle was made for a chunk: it has the chunk's address and tag. -/
def MadeFor (asked : ChunkId → Prop) (resolve : ChunkId → Except Fault String) (l : Loader)
    (x : Handle) : Prop :=
  ∃ k, asked k ∧ resolve k = .ok x.url ∧ x.tag = some (l.plan.policy.tagFor k)

/-- The handle of a load has the address of a chunk that reads like the load's own. -/
def Fits (asked : ChunkId → Prop) (resolve : ChunkId → Except Fault String) (l : Loader)
    (x : Attempt) : Prop :=
  ∃ k url, asked k ∧ k.text = x.chunk.text ∧ resolve k = .ok url ∧
    Registry.Has l.handles x.handle url

/-- Handles and loads belong together. -/
structure Traced (asked : ChunkId → Prop) (resolve : ChunkId → Except Fault String) (l : Loader) :
    Prop where
  wired : l.plan.wiring = .fetch resolve
  tidy : l.registry.Tidy l.handles
  origin : ∀ h x, l.Holds h x → l.MadeFor asked resolve x
  fits : ∀ a x, l.attempts.get? a = some x → l.Fits asked resolve x
  heard : ∀ h x a, l.handles.get? h = some x → x.Tells a →
    ∃ y, l.attempts.get? a = some y ∧ y.handle = h

variable {asked : ChunkId → Prop} {resolve : ChunkId → Except Fault String} {m : Move}
  {l l' : Loader}

theorem Fits.outlives {x x' : Attempt} (hx : l.Fits asked resolve x)
    (hh : l'.handles.Outlives l.handles) (hc : x'.chunk = x.chunk) (hr : x'.handle = x.handle) :
    l'.Fits asked resolve x' := by
  obtain ⟨k, url, hk, ht, hurl, has⟩ := hx
  exact ⟨k, url, hk, by rw [hc]; exact ht, hurl, by rw [hr]; exact hh _ _ has⟩

namespace Traced

/--
No handle comes into the registry, loads keep their chunks and handles, and nobody new is told
anything.
-/
theorem keep (i : Traced asked resolve l) (hp : l'.plan.policy = l.plan.policy)
    (hw : l'.plan.wiring = l.plan.wiring) (tidy : l'.registry.Tidy l'.handles)
    (hh : l'.handles.Outlives l.handles)
    (held : ∀ h x', l'.Holds h x' → ∃ x, l.Holds h x ∧ x.url = x'.url ∧ x.tag = x'.tag)
    (loads : ∀ a x', l'.attempts.get? a = some x' →
      ∃ x, l.attempts.get? a = some x ∧ x'.chunk = x.chunk ∧ x'.handle = x.handle)
    (still : ∀ a x, l.attempts.get? a = some x →
      ∃ x', l'.attempts.get? a = some x' ∧ x'.handle = x.handle)
    (told : ∀ h x' a, l'.handles.get? h = some x' → x'.Tells a →
      ∃ x, l.handles.get? h = some x ∧ x.Tells a) : Traced asked resolve l' where
  wired := hw.trans i.wired
  tidy := tidy
  origin := by
    intro h x' hx'
    obtain ⟨x, hx, hurl, htag⟩ := held h x' hx'
    unfold MadeFor
    rw [hp, ← hurl, ← htag]
    exact i.origin h x hx
  fits := by
    intro a x' hx'
    obtain ⟨x, hx, hc, hr⟩ := loads a x' hx'
    exact (i.fits a x hx).outlives hh hc hr
  heard := by
    intro h x' a hx' ha
    obtain ⟨x, hx, ha⟩ := told h x' a hx' ha
    obtain ⟨y, hy, rfl⟩ := i.heard h x a hx ha
    exact still a y hy

/-- Loads and handles stay as they are; the registry has none that it had not. -/
theorem shrink (i : Traced asked resolve l) (hp : l'.plan.policy = l.plan.policy)
    (hw : l'.plan.wiring = l.plan.wiring) (hat : l'.attempts = l.attempts)
    (hh : l'.handles = l.handles) (tidy : l'.registry.Tidy l'.handles)
    (hr : ∀ h ∈ l'.registry.handles, h ∈ l.registry.handles) : Traced asked resolve l' := by
  refine i.keep hp hw tidy (by rw [hh]; exact fun _ _ => id) (fun h x hx => ⟨x, ?_, rfl, rfl⟩)
    (fun a x hx => ⟨x, by rw [← hat]; exact hx, rfl, rfl⟩)
    (fun a x hx => ⟨x, by rw [hat]; exact hx, rfl⟩)
    (fun h x a hx ha => ⟨x, by rw [← hh]; exact hx, ha⟩)
  exact ⟨hr h hx.1, by rw [← hh]; exact hx.2⟩

theorem congr (i : Traced asked resolve l) (hp : l'.plan.policy = l.plan.policy)
    (hw : l'.plan.wiring = l.plan.wiring) (hat : l'.attempts = l.attempts)
    (hh : l'.handles = l.handles) (hr : l'.registry = l.registry) : Traced asked resolve l' :=
  i.shrink hp hw hat hh (by rw [hh, hr]; exact i.tidy) fun _ hm => by rw [← hr]; exact hm

/-- A handle is made that nobody observes. -/
theorem add (i : Traced asked resolve l) (handle : Handle)
    (hs : handle.onLoad = {} ∧ handle.onError = {}) :
    Traced asked resolve { l with handles := l.handles.add handle } := by
  refine i.keep rfl rfl (i.tidy.add handle) (l.handles.outlives_add handle) (fun h x hx => ?_)
    (fun a x hx => ⟨x, hx, rfl, rfl⟩) (fun a x hx => ⟨x, hx, rfl⟩) (fun h x a hx ha => ?_)
  · obtain ⟨y, hy⟩ := i.tidy.exists_of_mem hx.1
    have hxy := hx.2.symm.trans (Table.get?_add_of_some hy handle)
    cases hxy
    exact ⟨x, ⟨hx.1, hy⟩, rfl, rfl⟩
  · change (l.handles.add handle).get? h = some x at hx
    rw [Table.get?_add] at hx
    split at hx
    · cases hx
      simp [Handle.Tells, hs] at ha
    · exact ⟨x, hx, ha⟩

/-- A handle changes, but not what it is; it tells nobody new, and others may leave the registry. -/
theorem update (i : Traced asked resolve l) (h : HandleId) {f : Handle → Handle}
    (hf : ∀ x, (f x).url = x.url ∧ (f x).tag = x.tag)
    (hs : ∀ x a, (f x).Tells a → x.Tells a) {registry : Registry}
    (tidy : registry.Tidy (l.handles.update h f))
    (sub : ∀ h ∈ registry.handles, h ∈ l.registry.handles) :
    Traced asked resolve { l with handles := l.handles.update h f, registry } := by
  have back : ∀ k x', (l.handles.update h f).get? k = some x' →
      ∃ x, l.handles.get? k = some x ∧ x.url = x'.url ∧ x.tag = x'.tag ∧
        ∀ a, x'.Tells a → x.Tells a := by
    intro k x' hx'
    rw [Table.get?_update] at hx'
    split at hx'
    · obtain ⟨x, hx, rfl⟩ := Option.map_eq_some_iff.mp hx'
      exact ⟨x, hx, (hf x).1.symm, (hf x).2.symm, hs x⟩
    · exact ⟨x', hx', rfl, rfl, fun _ => id⟩
  refine i.keep rfl rfl tidy (l.handles.outlives_update h fun x => (hf x).1) (fun k x' hx' => ?_)
    (fun a x hx => ⟨x, hx, rfl, rfl⟩) (fun a x hx => ⟨x, hx, rfl⟩) (fun k x' a hx' ha => ?_)
  · obtain ⟨x, hx, hurl, htag, -⟩ := back k x' hx'.2
    exact ⟨x, ⟨sub k hx'.1, hx⟩, hurl, htag⟩
  · obtain ⟨x, hx, -, -, ht⟩ := back k x' hx'
    exact ⟨x, hx, ht a ha⟩

/-- A load begins on a handle, and may be told by it. -/
theorem begin (i : Traced asked resolve l) {x : Attempt} (hx : l.Fits asked resolve x)
    {f : Handle → Handle} (hf : ∀ y, (f y).url = y.url ∧ (f y).tag = y.tag)
    (hs : ∀ y a, (f y).Tells a → a = l.attempts.size ∨ y.Tells a) :
    Traced asked resolve { l with
      attempts := l.attempts.add x
      handles := l.handles.update x.handle f } := by
  have outlives : (l.handles.update x.handle f).Outlives l.handles :=
    l.handles.outlives_update x.handle fun y => (hf y).1
  refine
    { wired := i.wired
      tidy := i.tidy.update x.handle fun y => (hf y).1
      origin := ?_
      fits := ?_
      heard := ?_ }
  · rintro h y' ⟨hm, hy'⟩
    change (l.handles.update x.handle f).get? h = some y' at hy'
    rw [Table.get?_update] at hy'
    split at hy'
    · obtain ⟨y, hy, rfl⟩ := Option.map_eq_some_iff.mp hy'
      unfold MadeFor
      rw [(hf y).1, (hf y).2]
      exact i.origin h y ⟨hm, hy⟩
    · exact i.origin h y' ⟨hm, hy'⟩
  · intro a y hy
    rw [Table.get?_add] at hy
    split at hy
    · cases hy
      exact hx.outlives outlives rfl rfl
    · exact (i.fits a y hy).outlives outlives rfl rfl
  · intro h y' a hy' ha
    have old : ∀ {y}, l.handles.get? h = some y → y.Tells a →
        ∃ z, (l.attempts.add x).get? a = some z ∧ z.handle = h := by
      intro y hy ha
      obtain ⟨z, hz, hzh⟩ := i.heard h y a hy ha
      exact ⟨z, Table.get?_add_of_some hz x, hzh⟩
    change (l.handles.update x.handle f).get? h = some y' at hy'
    rw [Table.get?_update] at hy'
    split at hy'
    · rename_i hxh
      obtain ⟨y, hy, rfl⟩ := Option.map_eq_some_iff.mp hy'
      rcases hs y a ha with rfl | ha
      · exact ⟨x, Table.get?_add_size .., hxh⟩
      · exact old hy ha
    · exact old hy' ha

/-- The registered handle that a chunk's load finds fits the load. -/
theorem fits_of_found (i : Traced asked resolve l) {chunk : ChunkId} {url : String} {h : HandleId}
    (hc : asked chunk) (hr : resolve chunk = .ok url) (hf : l.findHandle chunk url = some h)
    {x : Attempt} (hx : x.chunk = chunk) (hh : x.handle = h) : l.Fits asked resolve x := by
  subst hx
  subst hh
  obtain ⟨hm, y, hy, hurl | htag⟩ := Registry.matching_of_find? i.tidy hf
  · exact ⟨x.chunk, url, hc, rfl, hr, y, hy, hurl⟩
  · obtain ⟨k, hk, hres, htag'⟩ := i.origin x.handle y ⟨hm, hy⟩
    have same : l.plan.policy.tagFor k = l.plan.policy.tagFor x.chunk :=
      Option.some.inj (htag'.symm.trans htag)
    exact ⟨k, y.url, hk, (String.append_right_inj _).mp same, hres, y, hy, rfl⟩

/-- A load makes its own handle, and registers it. -/
theorem make (i : Traced asked resolve l) {chunk : ChunkId} {url : String} {done : Done}
    (hc : asked chunk) (hr : resolve chunk = .ok url) :
    Traced asked resolve { l with
      attempts := l.attempts.add { chunk, handle := l.handles.size, done }
      handles := (l.handles.add (l.madeHandle chunk url)).update l.handles.size
        (·.observe l.attempts.size)
      registry := l.registry.attach l.handles.size url } := by
  have row : (l.handles.add (l.madeHandle chunk url)).get? l.handles.size =
      some (l.madeHandle chunk url) := Table.get?_add_size ..
  have entered := ((i.tidy.add (l.madeHandle chunk url)).enter i.tidy.size_not_mem
    ⟨_, row, rfl⟩).1
  have made : Traced asked resolve { l with
      handles := l.handles.add (l.madeHandle chunk url)
      registry := l.registry.attach l.handles.size url } := by
    have added := i.add (l.madeHandle chunk url) ⟨rfl, rfl⟩
    refine { added with tidy := entered, origin := ?_ }
    rintro h x ⟨hm, hx⟩
    rcases Registry.mem_of_mem_attach hm with hm | rfl
    · exact added.origin h x ⟨hm, hx⟩
    · cases row.symm.trans hx
      exact ⟨chunk, hc, hr, rfl⟩
  exact made.begin (x := { chunk, handle := l.handles.size, done })
    ⟨chunk, url, hc, rfl, hr, _, row, rfl⟩ (f := (·.observe l.attempts.size))
    (fun _ => ⟨rfl, rfl⟩) fun _ _ => Handle.tells_observe

theorem detach (i : Traced asked resolve l) {a : AttemptId} {x : Attempt}
    (ha : l.attempts.get? a = some x) (e : LoadEvent) :
    Traced asked resolve (l.detach a x.handle e) := by
  obtain ⟨k, url, -, -, -, handle, hh, -⟩ := i.fits a x ha
  have tidy := (tidy_registryAfter i.tidy hh e).1.update x.handle (f := (·.release)) fun _ => rfl
  have released := i.update x.handle (f := (·.release)) (fun _ => ⟨rfl, rfl⟩)
    (fun _ _ => Handle.not_tells_release.elim) tidy fun _ => mem_of_mem_registryAfter
  rw [detach_eq]
  refine released.keep rfl rfl tidy (fun _ _ => id) (fun h y hy => ⟨y, hy, rfl, rfl⟩)
    (fun b y hy => ?_) (fun b y hy => ?_) (fun h y b hy hb => ⟨y, hy, hb⟩)
  · change (l.attempts.update a _).get? b = some y at hy
    rw [Table.get?_update] at hy
    split at hy
    · obtain ⟨z, hz, rfl⟩ := Option.map_eq_some_iff.mp hy
      exact ⟨z, hz, rfl, rfl⟩
    · exact ⟨y, hy, rfl, rfl⟩
  · change ∃ x', (l.attempts.update a _).get? b = some x' ∧ _
    rw [Table.get?_update]
    split
    · exact ⟨{ y with settled := true }, by rw [show l.attempts.get? b = some y from hy]; rfl, rfl⟩
    · exact ⟨y, hy, rfl⟩

end Traced

theorem Change.traced (h : Change asked l l') (i : Traced asked resolve l) :
    Traced asked resolve l' := by
  cases h with
  | kept h he ho =>
    obtain ⟨ready, hs⟩ := l.newPromise.1.settlePromise_eq l.newPromise.2 .ok
    rw [hs]
    exact i.congr rfl rfl rfl rfl rfl
  | @abandoned t h =>
    unfold abandon
    split
    · exact i.congr rfl rfl rfl rfl rfl
    · exact i
  | made chunk url => exact i.add _ ⟨rfl, rfl⟩
  | @created resolve' t url hc ht hw hr hf fetches asks =>
    have hres : resolve' = resolve := Wiring.fetch.inj (hw.symm.trans i.wired)
    subst hres
    exact (i.make hc hr).congr rfl rfl rfl rfl rfl
  | @adopted t url h ht hf hl resolve' hc hw hr =>
    have hres : resolve' = resolve := Wiring.fetch.inj (hw.symm.trans i.wired)
    subst hres
    exact (i.begin (i.fits_of_found hc hr hf (x := ⟨t.chunk, h, .redeem t, false⟩) rfl rfl)
      (f := (·.observe l.attempts.size)) (fun _ => ⟨rfl, rfl⟩)
      fun _ _ => Handle.tells_observe).congr rfl rfl rfl rfl rfl
  | @found t url h ht hf hl resolve' hc hw hr =>
    have hres : resolve' = resolve := Wiring.fetch.inj (hw.symm.trans i.wired)
    subst hres
    exact (i.begin (i.fits_of_found hc hr hf (x := ⟨t.chunk, h, .redeem t, true⟩) rfl rfl)
      (f := (·.release)) (fun _ => ⟨rfl, rfl⟩)
      fun _ _ => Handle.not_tells_release.elim).congr rfl rfl rfl rfl rfl
  | @concluded a x ha hx e => exact i.detach ha e
  | @settled t h e =>
    obtain ⟨ready, log, hs⟩ := l.settleEntry_eq t e
    rw [hs]
    exact i.congr rfl rfl rfl rfl rfl
  | @aborted t h =>
    obtain ⟨o, ready, hs⟩ := l.abortEntry_eq t
    rw [hs]
    exact i.congr rfl rfl rfl rfl rfl
  | _ => exact i.congr rfl rfl rfl rfl rfl

theorem Act.traced (h : Act asked l m l') (hm : m.Unplanted resolve) (hs : ¬m.Assigns)
    (i : Traced asked resolve l) : Traced asked resolve l' := by
  have inner : ∀ {l₁ : Loader}, Inner l l₁ → Traced asked resolve l₁ := by
    rintro l₁ ⟨_, _, _, rfl⟩
    exact i.congr rfl rfl rfl rfl rfl
  cases h with
  | work h => exact h.traced i
  | spare handle he => exact i.add handle he
  | planted handle => exact hm.elim
  | attached h => exact hm.elim
  | removed h =>
    unfold remove
    split
    · exact i
    · exact i.shrink rfl rfl rfl rfl (i.tidy.remove _ _) fun _ => Registry.mem_of_mem_remove
  | assigned h hf he =>
    refine i.update h hf (fun x a ha => ?_) (i.tidy.update h fun x => (hf x).1) fun _ => id
    obtain ⟨hl, he, -⟩ := he hs x
    unfold Handle.Tells at ha ⊢
    rwa [hl, he] at ha
  | unloaded fetches closings hr hj hf =>
    rcases hr with rfl | rfl
    · exact i.congr rfl rfl rfl rfl rfl
    · exact i.shrink rfl rfl rfl rfl i.tidy.shut fun h hm => by
        rw [← l.registry.handles_shut]
        exact hm
  | cancelled p => exact inner (l.inner_cancelPromise p)
  | taskCancelled t => exact inner (l.inner_cancelTask t)
  | @told t p rest h => exact inner (l.inner_childSettled rest t p)
  | @woken t rest h => exact inner (l.inner_wakeTask rest t)
  | @awaited t chunks ps h hp => exact inner (l.inner_await t ps)
  | replanned resolve' hasAsset =>
    have hres : resolve' = resolve := hm
    subst hres
    exact i.congr rfl (by simp [Loader.replan, i.wired]) rfl rfl rfl
  | _ => exact i.congr rfl rfl rfl rfl rfl

/-! ### Handles keep their addresses -/

theorem Change.outlives (h : Change asked l l') : l'.handles.Outlives l.handles := by
  cases h with
  | kept h he ho =>
    obtain ⟨ready, hs⟩ := l.newPromise.1.settlePromise_eq l.newPromise.2 .ok
    rw [hs]
    exact fun _ _ => id
  | @abandoned t h =>
    unfold abandon
    split
    · exact fun _ _ => id
    · exact fun _ _ => id
  | made chunk url => exact l.handles.outlives_add _
  | @created resolve t url hc ht hw hr hf fetches asks =>
    show Table.Outlives (Table.update _ _ _) _
    rw [Table.update_add_size]
    exact l.handles.outlives_add _
  | adopted => exact l.handles.outlives_update _ fun _ => rfl
  | found => exact l.handles.outlives_update _ fun _ => rfl
  | @concluded a x ha hx e =>
    rw [detach_eq]
    exact l.handles.outlives_update _ fun _ => rfl
  | @settled t h e =>
    obtain ⟨ready, log, hs⟩ := l.settleEntry_eq t e
    rw [hs]
    exact fun _ _ => id
  | @aborted t h =>
    obtain ⟨o, ready, hs⟩ := l.abortEntry_eq t
    rw [hs]
    exact fun _ _ => id
  | _ => exact fun _ _ => id

theorem Act.outlives (h : Act asked l m l') : l'.handles.Outlives l.handles := by
  have inner : ∀ {l₁ : Loader}, Inner l l₁ → l₁.handles.Outlives l.handles := by
    rintro l₁ ⟨_, _, _, rfl⟩
    exact fun _ _ => id
  have outer : ∀ {l₁ : Loader}, Outer l l₁ → l₁.handles.Outlives l.handles := by
    rintro l₁ ⟨_, _, _, rfl⟩
    exact fun _ _ => id
  cases h with
  | work h => exact h.outlives
  | spare handle he => exact l.handles.outlives_add handle
  | planted handle => exact l.handles.outlives_add handle
  | attached h => exact outer (l.outer_attach h)
  | removed h => exact outer (l.outer_remove h)
  | assigned h hf => exact l.handles.outlives_update h fun x => (hf x).1
  | cancelled p => exact inner (l.inner_cancelPromise p)
  | taskCancelled t => exact inner (l.inner_cancelTask t)
  | @told t p rest h => exact inner (l.inner_childSettled rest t p)
  | @woken t rest h => exact inner (l.inner_wakeTask rest t)
  | @awaited t chunks ps h hp => exact inner (l.inner_await t ps)
  | _ => exact fun _ _ => id

/-! ### Reports in the queue -/

/-- The reports that wait in the queue are all of this kind. -/
def Reports (said : LoadEvent → Prop) (l : Loader) : Prop :=
  ∀ k e, .report k e ∈ l.ready → said e

namespace Reports

variable {said : LoadEvent → Prop}

theorem queue (i : l.Reports said) (jobs : List Job) (hr : l'.ready = l.ready ++ jobs)
    (hj : ∀ k e, .report k e ∉ jobs) : l'.Reports said := by
  intro k e hm
  rw [hr] at hm
  rcases List.mem_append.mp hm with hm | hm
  · exact i k e hm
  · exact absurd hm (hj k e)

theorem same (i : l.Reports said) (hr : l'.ready = l.ready) : l'.Reports said :=
  i.queue [] (by rw [hr, List.append_nil]) fun _ _ => List.not_mem_nil

theorem settlePromise (i : l.Reports said) (p : PromiseId) (o : Outcome) :
    (l.settlePromise p o).Reports said := by
  unfold Loader.settlePromise
  split
  · refine i.queue _ rfl fun k e hm => ?_
    obtain ⟨_, _, -, -, hj⟩ := mem_tidings.mp hm
    cases hj
  · exact i

theorem cancelAll (promises : List PromiseId) (i : l.Reports said) :
    (promises.foldl (fun l p => (l.cancelPromise p).1) l).Reports said := by
  induction promises generalizing l with
  | nil => exact i
  | cons p rest ih => exact ih (i.settlePromise p .cancelled)

theorem childSettled (i : l.Reports said) (t : TaskId) (p : PromiseId) :
    (l.childSettled t p).Reports said := by
  unfold Loader.childSettled
  split
  · split
    · exact i.same rfl
    · dsimp only
      split
      · exact i.queue [.wakeTask t] rfl fun _ _ hm => nomatch hm
      · exact i.same rfl
  · exact i

theorem await (i : l.Reports said) (t : TaskId) (ps : List PromiseId) :
    (l.await t ps).Reports said := by
  unfold Loader.await
  split
  · exact i.same rfl
  · refine i.queue _ rfl fun k e hm => ?_
    obtain ⟨p, -, hj⟩ := List.mem_map.mp hm
    cases hj

end Reports

/-- Work puts no report on the queue. -/
theorem Change.reports {said : LoadEvent → Prop} (h : Change asked l l') (i : l.Reports said) :
    l'.Reports said := by
  cases h with
  | kept h he ho => exact Reports.settlePromise (l := l.newPromise.1) (i.same rfl) _ .ok
  | @abandoned t h =>
    unfold abandon
    split
    · exact i.same rfl
    · exact i
  | @created resolve t url hc ht hw hr hf fetches asks =>
    refine i.queue _ rfl fun k e hm => ?_
    obtain ⟨f, -, hj⟩ := List.mem_map.mp hm
    cases hj
  | @concluded a x ha hx e =>
    rw [detach_eq]
    exact i.same rfl
  | @settled t h e =>
    unfold settleEntry
    split
    · refine Reports.settlePromise ?_ _ _
      exact i.same rfl
    · refine Reports.settlePromise ?_ _ _
      exact i.same rfl
  | aborted h =>
    refine Reports.settlePromise ?_ _ _
    exact i.same rfl
  | _ => exact i.same rfl

/-- Only a move that is for it puts a report on the queue. -/
theorem Act.reports {said : LoadEvent → Prop} (h : Act asked l m l')
    (hm : ∀ k e, m = .invoke (.reportLater k e) → said e) (i : l.Reports said) :
    l'.Reports said := by
  have popped : ∀ {j rest}, l.ready = j :: rest → Reports said { l with ready := rest } := by
    intro j rest h k e hm
    exact i k e (by rw [h]; exact List.mem_cons_of_mem j hm)
  cases h with
  | work h => exact h.reports i
  | deferred chunk e =>
    intro k e' hmem
    rcases List.mem_append.mp hmem with hmem | hmem
    · exact i k e' hmem
    · cases List.mem_singleton.mp hmem
      exact hm _ _ rfl
  | attached h =>
    unfold attach
    split
    · exact i
    · split
      · split
        · exact i
        · exact i.queue [.ask l.fetches.size] rfl fun _ _ hm => nomatch hm
      · exact i.same rfl
  | removed h =>
    unfold remove
    split
    · exact i
    · exact i.same rfl
  | @ensured chunks hc =>
    exact i.queue [.startTask l.tasks.size] rfl fun _ _ hm => nomatch hm
  | cancelled p => exact i.settlePromise p .cancelled
  | taskCancelled t =>
    unfold cancelTask
    split
    · exact i.same rfl
    · split
      · exact (i.cancelAll _).same rfl
      · exact i.same rfl
    · exact i
  | unloaded fetches closings hr hj hf => exact i.queue _ rfl fun _ _ hm => hj _ hm
  | popped h hn hw => exact popped h
  | @told t p rest h => exact (popped h).childSettled t p
  | @woken t rest h =>
    obtain ⟨tasks, hw⟩ := wakeTask_eq { l with ready := rest } t
    rw [hw]
    exact (popped h).same rfl
  | @awaited t chunks ps h hp => exact i.await t ps
  | _ => exact i.same rfl

/-- No report that waits in the queue is one of a load. -/
def Unreported (l : Loader) : Prop :=
  ∀ k e, .report k e ∈ l.ready → e.isLoad = false

theorem Act.unreported (h : Act asked l m l') (hm : m.Newsless) (i : l.Unreported) :
    l'.Unreported := by
  refine h.reports ?_ i
  rintro k e rfl
  exact hm

end Loader

end SingleFlight
