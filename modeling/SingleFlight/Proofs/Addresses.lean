/-
SingleFlight.Proofs.Addresses — addresses that tell chunks apart.

A template may show the id of a chunk several times, between texts that look like
parts of ids. Still the length of what it shows determines the length of the id,
and ids of one length stand at the same places; so the first place at which the id
is shown gives it back.

A load waits for a handle that has its chunk's address or its chunk's tag, whoever
registered the handle. So where chunks have different addresses, two of them that
wait for one handle do not both have it for its address.

* `Template.Part.eq_of_join_shown` — what a template shows gives the id back.
* `Registry.Addressed` — handles that are kept by address have it.
* `Loader.Matched`, with `Change.matched` and `Act.matched` — what loads have their
  handles for.
* `Loader.Matched.byTag` — of two chunks that wait for one handle, one has it for its tag.
* `Run.addresses_apart` — both, for all templates and all uses of a whole loader.
-/
import SingleFlight.Proofs.Earned
import SingleFlight.Proofs.Rendering

namespace SingleFlight

/-! ## §1 Ids among texts -/

namespace Template.Part

variable {parts : List Part} {s t hs ht : String}

/-- The id is shown as often as the template names it. -/
theorem length_join_shown (hhash : .hash ∉ parts) (s hs : String) :
    (String.join (parts.map (shown s hs))).toList.length =
      (String.join (parts.map (shown "" ""))).toList.length +
        parts.count .id * s.toList.length := by
  rw [String.toList_join, String.toList_join]
  induction parts with
  | nil => simp
  | cons p ps ih =>
    obtain ⟨hp, hps⟩ := not_or.mp (mt List.mem_cons.mpr hhash)
    simp only [List.map_cons, List.flatMap_cons, List.length_append, ih hps]
    cases p with
    | literal text => simp [shown]; omega
    | id => simp [shown, Nat.succ_mul]; omega
    | hash => exact absurd rfl hp

/-- The first id that is shown gives ids of one length back. -/
theorem eq_of_join_shown_of_length (hid : .id ∈ parts) (hhash : .hash ∉ parts)
    (hl : s.toList.length = t.toList.length)
    (h : String.join (parts.map (shown s hs)) = String.join (parts.map (shown t ht))) : s = t := by
  replace h := congrArg String.toList h
  rw [String.toList_join, String.toList_join] at h
  induction parts with
  | nil => cases hid
  | cons p ps ih =>
    simp only [List.map_cons, List.flatMap_cons] at h
    cases p with
    | literal text =>
      -- Texts in front of the first id are the same on both sides.
      have rest := List.append_cancel_left h
      exact ih (by simpa using hid) (fun hm => hhash (List.mem_cons_of_mem _ hm)) rest
    | id => exact String.toList_inj.mp (List.append_inj h hl).1
    | hash => exact absurd List.mem_cons_self hhash

/-- A template that shows the id and no hash shows different ids differently. -/
theorem eq_of_join_shown (hid : .id ∈ parts) (hhash : .hash ∉ parts)
    (h : String.join (parts.map (shown s hs)) = String.join (parts.map (shown t ht))) : s = t := by
  refine eq_of_join_shown_of_length hid hhash ?_ h
  have lengths := congrArg (fun text : String => text.toList.length) h
  rw [length_join_shown hhash s hs, length_join_shown hhash t ht] at lengths
  exact Nat.eq_of_mul_eq_mul_left (List.count_pos_iff.mpr hid) (Nat.add_left_cancel lengths)

end Template.Part

open Template (Part)

/-- By a template that shows the id and no hash, ids of one kind have different addresses. -/
theorem AddressTemplate.resolve_inj {a : AddressTemplate} {parts : List Part}
    (hf : a.filename = String.join (parts.map Part.written)) (hid : .id ∈ parts)
    (hhash : .hash ∉ parts) {k k' : ChunkId} (hk : k.isName = k'.isName)
    (h : a.resolve k = a.resolve k') : k = k' := by
  rw [a.resolve_template k parts hf, a.resolve_template k' parts hf] at h
  have shown := (String.append_right_inj _).mp (Except.ok.inj h)
  exact ChunkId.eq_of_text hk (Part.eq_of_join_shown hid hhash shown)

/-! ## §2 What a load has its handle for -/

/-- Handles keep their addresses and tags from one table to the other. -/
def Table.Names (table table' : Table Handle) : Prop :=
  ∀ h x, table.get? h = some x → ∃ x', table'.get? h = some x' ∧ x'.url = x.url ∧ x'.tag = x.tag

namespace Table.Names

variable {table : Table Handle}

theorem refl (table : Table Handle) : table.Names table :=
  fun _ x hx => ⟨x, hx, rfl, rfl⟩

theorem add (table : Table Handle) (y : Handle) : table.Names (table.add y) :=
  fun _ x hx => ⟨x, get?_add_of_some hx y, rfl, rfl⟩

theorem update (table : Table Handle) (h : HandleId) {f : Handle → Handle}
    (hf : ∀ x, (f x).url = x.url ∧ (f x).tag = x.tag) : table.Names (table.update h f) := by
  intro k x hx
  rw [get?_update, hx]
  split
  · exact ⟨f x, rfl, hf x⟩
  · exact ⟨x, rfl, rfl, rfl⟩

theorem has {table' : Table Handle} (n : table.Names table') {h : HandleId} {url : String}
    (hh : Registry.Has table h url) : Registry.Has table' h url := by
  obtain ⟨x, hx, rfl⟩ := hh
  obtain ⟨x', hx', hurl, -⟩ := n h x hx
  exact ⟨x', hx', hurl⟩

end Table.Names

namespace Registry

/-- Handles that are kept by address have the address that they are kept under. -/
def Addressed (table : Table Handle) : Registry → Prop
  | document _ _ => True
  | keyed entries _ => ∀ url h, (url, h) ∈ entries → Has table h url

namespace Addressed

variable {table table' : Table Handle} {r : Registry}

theorem of_empty (hr : r.handles = []) : r.Addressed table := by
  cases r with
  | document hs n => trivial
  | keyed entries client =>
    cases List.map_eq_nil_iff.mp hr
    exact fun url h hm => nomatch hm

theorem of_names (a : r.Addressed table) (n : table.Names table') : r.Addressed table' := by
  cases r with
  | document hs n => trivial
  | keyed entries client => exact fun url h hm => n.has (a url h hm)

/-- A handle comes into the registry under its own address. -/
theorem enter (a : r.Addressed table) {h : HandleId} {url : String} (hh : Has table h url) :
    (r.attach h url).Addressed table ∧ (r.plant h url).Addressed table := by
  cases r with
  | document hs n => exact ⟨trivial, trivial⟩
  | keyed entries client =>
    have entered : ∀ url' h', (url', h') ∈ entries.put url h → Has table h' url' := by
      intro url' h' hm
      rcases Pairs.mem_put hm with heq | hm
      · cases heq
        exact hh
      · exact a url' h' hm
    exact ⟨entered, entered⟩

theorem remove (a : r.Addressed table) (h : HandleId) (url : String) :
    (r.remove h url).Addressed table := by
  cases r with
  | document hs n => trivial
  | keyed entries client =>
    unfold Registry.remove
    dsimp only
    split
    · exact fun url' h' hm => a url' h' (List.mem_filter.mp hm).1
    · exact a

theorem shut (a : r.Addressed table) : r.shut.Addressed table := by
  cases r with
  | document hs n => trivial
  | keyed entries client => exact a

/-- What a look-up finds has the address or the tag. -/
theorem found (a : r.Addressed table) {url tag : String} {h : HandleId}
    (hf : r.find? table url (some tag) = some h) :
    ∃ x, table.get? h = some x ∧ (x.url = url ∨ x.tag = some tag) :=
  exists_of_find? (fun hr => by cases hr; exact a) hf

end Addressed

end Registry

/-- A move that changes how addresses are found leaves them as they are. -/
def Move.Resolves (resolve : ChunkId → Except Fault String) : Move → Prop
  | .replan resolve' _ => resolve' = resolve
  | _ => True

theorem Move.Unplanted.resolves {resolve : ChunkId → Except Fault String} {m : Move}
    (h : m.Unplanted resolve) : m.Resolves resolve := by
  cases m with
  | replan resolve' hasAsset => exact h
  | _ => trivial

namespace Loader

/-- A chunk has a handle for its address, or for its tag. -/
def Fetchable (resolve : ChunkId → Except Fault String) (l : Loader) (chunk : ChunkId)
    (x : Handle) : Prop :=
  resolve chunk = .ok x.url ∨ x.tag = some (l.plan.policy.tagFor chunk)

/-- A load has its handle for the tag of its chunk alone. -/
def ByTag (resolve : ChunkId → Except Fault String) (l : Loader) (x : Attempt) : Prop :=
  ∃ y, l.handles.get? x.handle = some y ∧ y.tag = some (l.plan.policy.tagFor x.chunk) ∧
    resolve x.chunk ≠ .ok y.url

/-- Loads are for chunks that were asked for, and have their handles for the address or the tag. -/
structure Matched (asked : ChunkId → Prop) (resolve : ChunkId → Except Fault String) (l : Loader) :
    Prop where
  wired : l.plan.wiring = .fetch resolve
  addressed : l.registry.Addressed l.handles
  asked : ∀ a x, l.attempts.get? a = some x → asked x.chunk
  handle : ∀ a x, l.attempts.get? a = some x →
    ∃ y, l.handles.get? x.handle = some y ∧ l.Fetchable resolve x.chunk y

variable {asked : ChunkId → Prop} {resolve : ChunkId → Except Fault String} {m : Move}
  {l l' : Loader}

namespace Matched

/-- Loads keep their chunks and handles, and handles keep their names. -/
theorem keep (i : Matched asked resolve l) (hp : l'.plan.policy = l.plan.policy)
    (hw : l'.plan.wiring = l.plan.wiring) (hn : l.handles.Names l'.handles)
    (addressed : l'.registry.Addressed l'.handles)
    (loads : ∀ a x', l'.attempts.get? a = some x' →
      ∃ x, l.attempts.get? a = some x ∧ x'.chunk = x.chunk ∧ x'.handle = x.handle) :
    Matched asked resolve l' where
  wired := hw.trans i.wired
  addressed := addressed
  asked := by
    intro a x' hx'
    obtain ⟨x, hx, hc, -⟩ := loads a x' hx'
    rw [hc]
    exact i.asked a x hx
  handle := by
    intro a x' hx'
    obtain ⟨x, hx, hc, hh⟩ := loads a x' hx'
    obtain ⟨y, hy, hf⟩ := i.handle a x hx
    obtain ⟨y', hy', hurl, htag⟩ := hn _ y hy
    refine ⟨y', by rw [hh]; exact hy', ?_⟩
    unfold Fetchable at hf ⊢
    rwa [hc, hurl, htag, hp]

/-- Loads stay as they are, and handles keep their names. -/
theorem still (i : Matched asked resolve l) (hp : l'.plan.policy = l.plan.policy)
    (hw : l'.plan.wiring = l.plan.wiring) (hat : l'.attempts = l.attempts)
    (hn : l.handles.Names l'.handles) (addressed : l'.registry.Addressed l'.handles) :
    Matched asked resolve l' :=
  i.keep hp hw hn addressed fun a x hx => ⟨x, by rw [← hat]; exact hx, rfl, rfl⟩

theorem congr (i : Matched asked resolve l) (hp : l'.plan.policy = l.plan.policy)
    (hw : l'.plan.wiring = l.plan.wiring) (hat : l'.attempts = l.attempts)
    (hh : l'.handles = l.handles) (hr : l'.registry = l.registry) : Matched asked resolve l' :=
  i.still hp hw hat (by rw [hh]; exact .refl _) (by rw [hh, hr]; exact i.addressed)

/-- A load begins on a handle that it has for the address or the tag. -/
theorem begin (i : Matched asked resolve l) {x : Attempt} {y : Handle} (hc : asked x.chunk)
    (hy : l.handles.get? x.handle = some y) (hf : l.Fetchable resolve x.chunk y) :
    Matched asked resolve { l with attempts := l.attempts.add x } where
  wired := i.wired
  addressed := i.addressed
  asked := by
    intro a z hz
    rw [Table.get?_add] at hz
    split at hz
    · cases hz
      exact hc
    · exact i.asked a z hz
  handle := by
    intro a z hz
    rw [Table.get?_add] at hz
    split at hz
    · cases hz
      exact ⟨y, hy, hf⟩
    · exact i.handle a z hz

/-- What a chunk's load finds, it has for the address or the tag. -/
theorem found (i : Matched asked resolve l) {chunk : ChunkId} {url : String} {h : HandleId}
    (hr : resolve chunk = .ok url) (hf : l.findHandle chunk url = some h) :
    ∃ y, l.handles.get? h = some y ∧ l.Fetchable resolve chunk y := by
  obtain ⟨y, hy, hurl | htag⟩ := i.addressed.found hf
  · exact ⟨y, hy, .inl (by rw [hurl]; exact hr)⟩
  · exact ⟨y, hy, .inr htag⟩

/-- A handle changes, but not its names. -/
theorem update (i : Matched asked resolve l) (h : HandleId) {f : Handle → Handle}
    (hf : ∀ x, (f x).url = x.url ∧ (f x).tag = x.tag) :
    Matched asked resolve { l with handles := l.handles.update h f } :=
  have names := Table.Names.update l.handles h hf
  i.still rfl rfl rfl names (i.addressed.of_names names)

theorem add (i : Matched asked resolve l) (y : Handle) :
    Matched asked resolve { l with handles := l.handles.add y } :=
  have names := Table.Names.add l.handles y
  i.still rfl rfl rfl names (i.addressed.of_names names)

/-- The registry changes. -/
theorem enrol (i : Matched asked resolve l) {registry : Registry}
    (addressed : registry.Addressed l.handles) : Matched asked resolve { l with registry } :=
  i.still rfl rfl rfl (.refl _) addressed

theorem remove (i : Matched asked resolve l) (h : HandleId) :
    Matched asked resolve (l.remove h) := by
  unfold Loader.remove
  split
  · exact i
  · exact i.enrol (i.addressed.remove h _)

theorem attach (i : Matched asked resolve l) (h : HandleId) :
    Matched asked resolve (l.attach h).1 := by
  unfold Loader.attach
  split
  · exact i
  · rename_i y hy
    have entered := i.enrol (i.addressed.enter ⟨y, hy, rfl⟩).1
    split
    · split
      · exact i
      · exact entered.congr rfl rfl rfl rfl rfl
    · exact entered

theorem detach (i : Matched asked resolve l) (a : AttemptId) (h : HandleId) (e : LoadEvent) :
    Matched asked resolve (l.detach a h e) := by
  have left : (l.registryAfter h e).Addressed l.handles := by
    unfold registryAfter Loader.remove
    split
    · exact i.addressed
    · split
      · exact i.addressed
      · exact i.addressed.remove h _
  have released := (i.enrol left).update h (f := (·.release)) fun _ => ⟨rfl, rfl⟩
  rw [detach_eq]
  refine released.keep rfl rfl (.refl _) released.addressed fun b x hx => ?_
  change (l.attempts.update a _).get? b = some x at hx
  rw [Table.get?_update] at hx
  split at hx
  · obtain ⟨y, hy, rfl⟩ := Option.map_eq_some_iff.mp hx
    exact ⟨y, hy, rfl, rfl⟩
  · exact ⟨x, hx, rfl, rfl⟩

/-- Of two chunks with different addresses that wait for one handle, one has it for its tag. -/
theorem byTag (i : Matched asked resolve l) {a b : AttemptId} {x y : Attempt}
    (hx : l.attempts.get? a = some x) (hy : l.attempts.get? b = some y)
    (hh : x.handle = y.handle) (apart : resolve x.chunk ≠ resolve y.chunk) :
    l.ByTag resolve x ∨ l.ByTag resolve y := by
  obtain ⟨z, hz, fits⟩ := i.handle a x hx
  obtain ⟨z', hz', fits'⟩ := i.handle b y hy
  rw [hh] at hz
  obtain rfl : z = z' := Option.some.inj (hz.symm.trans hz')
  by_cases hurl : resolve x.chunk = .ok z.url
  · have other : resolve y.chunk ≠ .ok z.url := fun hurl' => apart (hurl.trans hurl'.symm)
    exact .inr ⟨z, hz', fits'.resolve_left other, other⟩
  · exact .inl ⟨z, by rw [hh]; exact hz, fits.resolve_left hurl, hurl⟩

end Matched

/-- Chunks of one kind with different addresses have different handles, if all come from loads. -/
theorem Traced.chunk_eq {named : Bool} (i : Traced (·.isName = named) resolve l)
    (apart : ∀ {k k' : ChunkId}, k.isName = named → k'.isName = named → resolve k = resolve k' →
      k = k')
    {a b : AttemptId} {x y : Attempt} (hx : l.attempts.get? a = some x)
    (hy : l.attempts.get? b = some y) (hxk : x.chunk.isName = named)
    (hyk : y.chunk.isName = named) (hh : x.handle = y.handle) : x.chunk = y.chunk := by
  obtain ⟨k, url, hk, htext, hres, has⟩ := i.fits a x hx
  obtain ⟨k', url', hk', htext', hres', z, hz, hurl⟩ := i.fits b y hy
  have hkx : k = x.chunk := ChunkId.eq_of_text (hk.trans hxk.symm) htext
  have hky : k' = y.chunk := ChunkId.eq_of_text (hk'.trans hyk.symm) htext'
  rw [hh] at has
  have same : url' = url := hurl.symm.trans (has.url_eq hz)
  rw [← hkx, ← hky]
  exact apart hk hk' (hres.trans (by rw [← same, hres']))

theorem Change.matched (h : Change asked l l') (i : Matched asked resolve l) :
    Matched asked resolve l' := by
  cases h with
  | kept h he ho =>
    obtain ⟨ready, hs⟩ := l.newPromise.1.settlePromise_eq l.newPromise.2 .ok
    rw [hs]
    exact i.congr rfl rfl rfl rfl rfl
  | @abandoned t h =>
    unfold abandon
    split
    · exact i.congr rfl rfl rfl rfl rfl
    · exact i
  | made chunk url => exact i.add _
  | @created resolve' t url hc ht hw hr hf fetches asks =>
    have hres : resolve' = resolve := Wiring.fetch.inj (hw.symm.trans i.wired)
    subst hres
    -- The handle is made and enters the registry under its own address before the load begins.
    let y := l.madeHandle t.chunk url
    have row : (l.handles.add y).get? l.handles.size = some y := Table.get?_add_size ..
    have made := i.add y
    have entered := made.enrol (made.addressed.enter ⟨y, row, rfl⟩).1
    have loaded := entered.begin
      (x := { chunk := t.chunk, handle := l.handles.size, done := .redeem t }) hc row (.inl hr)
    exact (loaded.update l.handles.size (f := (·.observe l.attempts.size))
      fun _ => ⟨rfl, rfl⟩).congr rfl rfl rfl rfl rfl
  | @adopted t url h ht hf hl resolve' hc hw hr =>
    have hres : resolve' = resolve := Wiring.fetch.inj (hw.symm.trans i.wired)
    subst hres
    obtain ⟨y, hy, fits⟩ := i.found hr hf
    have loaded := i.begin (x := { chunk := t.chunk, handle := h, done := .redeem t }) hc hy fits
    exact (loaded.update h (f := (·.observe l.attempts.size))
      fun _ => ⟨rfl, rfl⟩).congr rfl rfl rfl rfl rfl
  | @found t url h ht hf hl resolve' hc hw hr =>
    have hres : resolve' = resolve := Wiring.fetch.inj (hw.symm.trans i.wired)
    subst hres
    obtain ⟨y, hy, fits⟩ := i.found hr hf
    have loaded := i.begin
      (x := { chunk := t.chunk, handle := h, done := .redeem t, settled := true }) hc hy fits
    exact (loaded.update h (f := (·.release)) fun _ => ⟨rfl, rfl⟩).congr rfl rfl rfl rfl rfl
  | @concluded a x ha hx e => exact i.detach a x.handle e
  | @settled t h e =>
    obtain ⟨ready, log, hs⟩ := l.settleEntry_eq t e
    rw [hs]
    exact i.congr rfl rfl rfl rfl rfl
  | @aborted t h =>
    obtain ⟨o, ready, hs⟩ := l.abortEntry_eq t
    rw [hs]
    exact i.congr rfl rfl rfl rfl rfl
  | _ => exact i.congr rfl rfl rfl rfl rfl

theorem Act.matched (h : Act asked l m l') (hm : m.Resolves resolve)
    (i : Matched asked resolve l) : Matched asked resolve l' := by
  have inner : ∀ {l₁ : Loader}, Inner l l₁ → Matched asked resolve l₁ := by
    rintro l₁ ⟨_, _, _, rfl⟩
    exact i.congr rfl rfl rfl rfl rfl
  cases h with
  | work h => exact h.matched i
  | spare handle hs => exact i.add handle
  | planted handle =>
    have row : (l.handles.add handle).get? l.handles.size = some handle := Table.get?_add_size ..
    have made := i.add handle
    exact made.enrol (made.addressed.enter ⟨handle, row, rfl⟩).2
  | attached h => exact i.attach h
  | removed h => exact i.remove h
  | assigned h hf hs => exact i.update h hf
  | unloaded fetches closings hr hj hf =>
    rcases hr with rfl | rfl
    · exact i.congr rfl rfl rfl rfl rfl
    · exact (i.enrol i.addressed.shut).congr rfl rfl rfl rfl rfl
  | cancelled p => exact inner (l.inner_cancelPromise p)
  | taskCancelled t => exact inner (l.inner_cancelTask t)
  | @told t p rest h => exact inner (l.inner_childSettled rest t p)
  | @woken t rest h => exact inner (l.inner_wakeTask rest t)
  | @awaited t chunks ps h hp => exact inner (l.inner_await t ps)
  | replanned resolve' hasAsset =>
    have hres : resolve' = resolve := hm
    subst hres
    exact i.congr rfl (by simp [Loader.replan, i.wired]) rfl rfl rfl
  | _ => exact i.congr rfl rfl rfl rfl rfl

end Loader

/-! ## §3 Uses -/

namespace Run

theorem matched_opened (asked : ChunkId → Prop) (policy : Policy)
    (resolve : ChunkId → Except Fault String) (hasAsset : ChunkId → Bool) (cache : Cache)
    {registry : Registry} (he : registry.handles = []) (sink : Metrics.Sink) :
    Loader.Matched asked resolve (.whole policy resolve hasAsset cache registry sink) where
  wired := rfl
  addressed := Registry.Addressed.of_empty he
  asked := fun a x hx => by simp [Loader.whole, Table.get?] at hx
  handle := fun a x hx => by simp [Loader.whole, Table.get?] at hx

/--
A file name that shows the id and no hash. Chunks of one kind have different addresses then. In
every use of a whole loader with these addresses, of two loads for different chunks that have one
handle, one has it for its tag alone. If handles come into the registry only through loads, no two
chunks have one handle.
-/
theorem addresses_apart {a : AddressTemplate} {parts : List Part} {named : Bool}
    (hf : a.filename = String.join (parts.map Part.written)) (hid : .id ∈ parts)
    (hhash : .hash ∉ parts) :
    (∀ k k' : ChunkId, k.isName = named → k'.isName = named → k ≠ k' →
      ∃ url url', a.resolve k = .ok url ∧ a.resolve k' = .ok url' ∧ url ≠ url') ∧
    ∀ {policy : Policy} {hasAsset : ChunkId → Bool} {installed : List (ChunkId × String)}
      {cache : Cache} {registry : Registry} {sink : Metrics.Sink} {r : Run},
      Cache.seed installed = .ok cache → registry.handles = [] →
      let opened : Run := { loader := .whole policy a.resolve hasAsset cache registry sink }
      (Reachable (fun _ m => m.Outer ∧ m.Asks (·.isName = named) ∧ m.Resolves a.resolve) opened r →
        ∀ i j x y, r.loader.attempts.get? i = some x → r.loader.attempts.get? j = some y →
          x.handle = y.handle → x.chunk ≠ y.chunk →
            r.loader.ByTag a.resolve x ∨ r.loader.ByTag a.resolve y) ∧
      (Reachable (fun _ m => m.Outer ∧ m.Asks (·.isName = named) ∧ m.Unplanted a.resolve ∧
          ¬m.Assigns) opened r →
        ∀ i j x y, r.loader.attempts.get? i = some x → r.loader.attempts.get? j = some y →
          x.handle = y.handle → x.chunk = y.chunk) := by
  have apart : ∀ {k k' : ChunkId}, k.isName = named → k'.isName = named →
      a.resolve k = a.resolve k' → k = k' := fun hk hk' =>
    AddressTemplate.resolve_inj hf hid hhash (hk.trans hk'.symm)
  refine ⟨fun k k' hk hk' hne => ?_, ?_⟩
  · refine ⟨_, _, a.resolve_template k parts hf, a.resolve_template k' parts hf, fun h => ?_⟩
    refine hne (apart hk hk' ?_)
    rw [a.resolve_template k parts hf, a.resolve_template k' parts hf, h]
  · intro policy hasAsset installed cache registry sink r hc hr opened
    have rested : opened.Rested (·.isName = named) :=
      .opened _ policy a.resolve hasAsset hc registry sink
    have opens := matched_opened (·.isName = named) policy a.resolve hasAsset cache hr sink
    refine ⟨fun reach i j x y hx hy hh hne => ?_, fun reach i j x y hx hy hh => ?_⟩
    · have matched := (Rested.of_reachable (I := Loader.Matched (·.isName = named) a.resolve)
        (fun _ _ hm => ⟨hm.1, hm.2.1⟩)
        (fun _ _ hm _ _ _ act => act.matched hm.2.2) rested opens reach).2
      exact matched.byTag hx hy hh fun same =>
        hne (apart (matched.asked i x hx) (matched.asked j y hy) same)
    · -- A handle that no load made could have any tag; where there is none, tags come from chunks.
      have both := (Rested.of_reachable
        (I := fun l => Loader.Matched (·.isName = named) a.resolve l ∧
          Loader.Traced (·.isName = named) a.resolve l)
        (fun _ _ hm => ⟨hm.1, hm.2.1⟩)
        (fun _ _ hm _ _ _ act i => ⟨act.matched hm.2.2.1.resolves i.1,
          act.traced hm.2.2.1 hm.2.2.2 i.2⟩)
        rested ⟨opens, (earned_opened _ policy a.resolve hasAsset cache hr sink).2.1⟩ reach).2
      exact both.2.chunk_eq apart hx hy (both.1.asked i x hx) (both.1.asked j y hy) hh

/--
A handle stands under the address of chunk 1 and the tag of chunk 11. Both chunks wait for it, and
it is not the address that led chunk 11 there.
-/
theorem one_handle_by_tag :
    let a : AddressTemplate := {}
    let opened : Run :=
      { loader := .whole {} a.resolve (fun _ => true) {} (.document [] 0) .silent }
    let planted : Handle := { url := "1.css", tag := some "webpack:chunk-11", loading := true }
    let r := opened.steps
      [.invoke (.plant planted), .invoke (.request (.number 1)), .invoke (.request (.number 11))]
    ∃ x y, r.loader.attempts.get? 0 = some x ∧ r.loader.attempts.get? 1 = some y ∧
      x.chunk = .number 1 ∧ y.chunk = .number 11 ∧ x.handle = y.handle ∧
      (r.loader.ByTag a.resolve x ∨ r.loader.ByTag a.resolve y) := by
  intro a opened planted r
  have hf : a.filename = String.join ([Part.id, .literal ".css"].map Part.written) := by decide
  have resolve : a.resolve = fun k => .ok ("" ++ (k.text ++ ".css")) := by
    funext k
    rw [a.resolve_template k _ hf]
    simp [Part.shown, a, String.join]
  have two : (r.loader.attempts.get? 0).map (fun x => (x.chunk, x.handle)) = some (.number 1, 0) ∧
      (r.loader.attempts.get? 1).map (fun x => (x.chunk, x.handle)) = some (.number 11, 0) := by
    unfold r opened
    rw [resolve]
    decide
  obtain ⟨x, hx, hxc⟩ := Option.map_eq_some_iff.mp two.1
  obtain ⟨y, hy, hyc⟩ := Option.map_eq_some_iff.mp two.2
  obtain ⟨hxk, hxh⟩ := Prod.mk.inj hxc
  obtain ⟨hyk, hyh⟩ := Prod.mk.inj hyc
  refine ⟨x, y, hx, hy, hxk, hyk, hxh.trans hyh.symm, ?_⟩
  have reach : Reachable (fun _ m => m.Outer ∧ m.Asks (·.isName = false) ∧ m.Resolves a.resolve)
      opened r := by
    refine Reachable.start.steps _ fun _ m hm => ?_
    simp only [List.mem_cons, List.not_mem_nil, or_false] at hm
    rcases hm with rfl | rfl | rfl
    · exact ⟨trivial, trivial, trivial⟩
    · exact ⟨trivial, rfl, trivial⟩
    · exact ⟨trivial, rfl, trivial⟩
  have seeded : Cache.seed [] = .ok {} := rfl
  have fresh : (Registry.document [] 0).handles = [] := rfl
  have differ : x.chunk ≠ y.chunk := by
    rw [hxk, hyk]
    decide
  exact ((addresses_apart hf (by decide) (by decide)).2 seeded fresh).1 reach 0 1 x y hx hy
    (hxh.trans hyh.symm) differ

end Run

end SingleFlight
