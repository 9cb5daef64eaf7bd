/-
SingleFlight.Proofs.Fetches — loads wait for fetches that go on.

A registry keyed by address fetches each handle that is attached to it. Where no
two chunks have one address and handles come into the registry only through
loads, each load has made its handle for itself: it alone is told by the handle,
and the fetch of the handle goes on until the load ends.

For this it does not matter whether the handle is still registered. Code outside
may take it out; `gone` says of which handles this is known.

* `Loader.Awaiting` — the invariant; `Awaiting.keep` — what it does not notice.
* `Awaiting.ended`, `Awaiting.started` — the end and the start of an attempt.
* `Awaiting.signal`, `abortAll`, `request`, `collect` — the pieces of work.
* `Awaiting.invoke`, `runJob`, `fire` — operations, jobs and watchdogs.
* `Awaiting.answered` — the client's answer for a handle that a load waits for.
-/
import SingleFlight.Proofs.Late
import SingleFlight.Proofs.Origins
import SingleFlight.Proofs.Shifts

namespace SingleFlight

/-- The move writes into a slot of a handle. -/
def Move.WritesSlots : Move → Prop
  | .invoke (.assign _ onLoad onError _) => onLoad.isSome = true ∨ onError.isSome = true
  | _ => False

namespace Registry

variable (r : Registry) (h : HandleId) (url : String)

@[simp] theorem fetches_attach : (r.attach h url).fetches = r.fetches := by
  cases r <;> rfl

@[simp] theorem fetches_remove : (r.remove h url).fetches = r.fetches := by
  cases r with
  | document hs n => rfl
  | keyed entries client =>
    unfold remove
    dsimp only
    split
    · rfl
    · rfl

@[simp] theorem fetches_shut : r.shut.fetches = r.fetches := by
  cases r <;> rfl

end Registry

/-- A handle that was made for a chunk, can hold a download, and tells one load and nobody else. -/
structure Terms.Serves (terms : Terms) (k : ChunkId) (a : AttemptId) (y : Handle) : Prop where
  made : terms.Made k y
  onLoad : y.onLoad = { waiting := [a] }
  onError : y.onError = { waiting := [a] }
  download : y.download.isSome = true

theorem Terms.Serves.slotFor {terms : Terms} {k : ChunkId} {a : AttemptId} {y : Handle}
    (s : terms.Serves k a y) (type : String) : y.slotFor type = { waiting := [a] } := by
  unfold Handle.slotFor
  split
  · exact s.onLoad
  · exact s.onError

/-- A handle changes, but neither what it was made for nor whom it tells. -/
structure Handle.Same (y y' : Handle) : Prop where
  url : y'.url = y.url
  tag : y'.tag = y.tag
  onLoad : y'.onLoad = y.onLoad
  onError : y'.onError = y.onError
  download : y'.download.isSome = y.download.isSome

theorem Handle.Same.refl (y : Handle) : y.Same y :=
  ⟨rfl, rfl, rfl, rfl, rfl⟩

theorem Handle.same_record (y : Handle) (f : Download → Download) : y.Same (y.record f) :=
  ⟨rfl, rfl, rfl, rfl, Option.isSome_map ..⟩

theorem Terms.Serves.same {terms : Terms} {k : ChunkId} {a : AttemptId} {y y' : Handle}
    (s : terms.Serves k a y) (hs : y.Same y') : terms.Serves k a y' where
  made := s.made.congr hs.url hs.tag
  onLoad := hs.onLoad.trans s.onLoad
  onError := hs.onError.trans s.onError
  download := hs.download.trans s.download

namespace Loader

/-- The client's answer is kept in its handle, and the fetch is over. -/
def Records (l : Loader) (f : FetchId) (h : HandleId) (reply : Reply) (l' : Loader) : Prop :=
  ∃ ready log, l' =
    { l.setStage f .over with
      handles := l.handles.update h (·.record reply.record)
      ready
      log }

theorem takeAnswer_eq {l : Loader} {f : FetchId} {h : HandleId} {reply : Reply} {y : Handle}
    (hf : l.fetches.get? f = some { handle := h, stage := .answered reply })
    (hy : l.handles.get? h = some y) :
    ∃ l', l.Records f h reply l' ∧ l.takeAnswer f =
      (l', [.signal (y.slotFor reply.signal) (l.signalFrom h reply.signal)]) := by
  obtain ⟨log, htake⟩ := takeAnswer_record hf hy
  exact ⟨_, ⟨_, _, rfl⟩, htake⟩

/-! ## §1 Ends and starts of attempts -/

@[simp] theorem fetches_registryAfter (l : Loader) (h : HandleId) (e : LoadEvent) :
    (l.registryAfter h e).fetches = l.registry.fetches := by
  unfold registryAfter
  split
  · rfl
  · unfold Loader.remove
    split
    · rfl
    · exact Registry.fetches_remove ..

namespace Ended

variable {l l' : Loader} {t : Ticket} {a b : AttemptId} {h h' : HandleId} {e : LoadEvent}
  {resolve : ChunkId → Except Fault String} {named : Bool}

/-- A registered handle was registered before, with the same address and tag. -/
theorem held (n : l.Ended t a h e l') {y' : Handle} (hy' : l'.Holds h' y') :
    ∃ y, l.Holds h' y ∧ y'.url = y.url ∧ y'.tag = y.tag := by
  obtain ⟨y, hy, hurl, htag⟩ := n.exists_get? hy'.2
  exact ⟨y, ⟨n.mem_of_mem hy'.1, hy⟩, hurl, htag⟩

/-- An active load was active before, and it is another one. -/
theorem load (n : l.Ended t a h e l') {x : Attempt} (hb : b ∈ l'.active)
    (hx : l'.attempts.get? b = some x) : b ≠ a ∧ b ∈ l.active ∧ l.attempts.get? b = some x := by
  rw [n.active, List.mem_filter] at hb
  have hba : b ≠ a := by simpa using hb.2
  rw [n.attempts, Table.get?_update, if_neg fun heq => hba heq.symm] at hx
  exact ⟨hba, hb.1, hx⟩

theorem filed (n : l.Ended t a h e l') (f : Filed resolve named l) : Filed resolve named l' := by
  refine (f.detach a h e).congr ?_ ?_ ?_ ?_
  · rw [n.plan, detach_eq]
  · rw [n.plan, detach_eq]
  · rw [n.handles, detach_eq]
  · rw [n.registry, detach_eq]

end Ended

namespace Started

variable {l l' : Loader} {k : ChunkId} {url : String} {b : AttemptId} {h : HandleId}
  {resolve : ChunkId → Except Fault String} {named : Bool}

/-- The new handle waits for the new load. -/
theorem row (n : l.Started k url l') : l'.handles.get? l.handles.size =
    some ((l.madeHandle k url).observe l.attempts.size) := by
  rw [n.handles, Table.get?_add_size]

/-- An active load is the new one, or it was active before. -/
theorem load_cases (n : l.Started k url l') {x : Attempt} (hb : b ∈ l'.active)
    (hx : l'.attempts.get? b = some x) :
    b = l.attempts.size ∧ x.chunk = k ∧ x.handle = l.handles.size ∨
      b ∈ l.active ∧ l.attempts.get? b = some x := by
  rw [n.attempts, Table.get?_add] at hx
  split at hx
  · rename_i hb'
    cases hx
    exact .inl ⟨hb', rfl, rfl⟩
  · rename_i hb'
    rw [n.active, List.mem_append, List.mem_singleton, or_iff_left hb'] at hb
    exact .inr ⟨hb, hx⟩

variable (unfound : l.findHandle k url = none)

include unfound

theorem registered (n : l.Started k url l') :
    l'.registry.handles = l.registry.handles ++ [l.handles.size] := by
  rw [n.registry, Registry.handles_attach unfound]

/-- A registered handle was registered before, or it is the new one. -/
theorem held_cases (n : l.Started k url l') (tidy : l.registry.Tidy l.handles) {y : Handle}
    (hy : l'.Holds h y) : l.Holds h y ∨
      h = l.handles.size ∧ y = (l.madeHandle k url).observe l.attempts.size := by
  obtain ⟨hm, hrow⟩ := hy
  rw [n.registered unfound, List.mem_append, List.mem_singleton] at hm
  rcases hm with hm | rfl
  · obtain ⟨z, hz⟩ := tidy.exists_of_mem hm
    rw [n.handles, Table.get?_add_of_some hz] at hrow
    cases hrow
    exact .inl ⟨hm, hz⟩
  · exact .inr ⟨rfl, Option.some.inj (hrow.symm.trans n.row)⟩

theorem filed (n : l.Started k url l') (f : Filed resolve named l) (hk : k.isName = named)
    (hr : resolve k = .ok url) : Filed resolve named l' := by
  refine ((f.attach hk hr unfound).changeHandle l.handles.size
    (g := (·.observe l.attempts.size)) fun _ => ⟨rfl, rfl⟩).congr ?_ ?_ ?_ n.registry
  · rw [n.plan]
    rfl
  · rw [n.plan]
    rfl
  · rw [n.handles, changeHandle, Table.update_add_size]

end Started

/-! ## §2 The invariant -/

end Loader

/-- The fetch is not over, and nobody has cancelled it. -/
def FetchStage.goesOn : FetchStage → Bool
  | .stopping => false
  | .over => false
  | _ => true

namespace Loader

/-- The handle has a fetch that goes on. -/
def Fetching (l : Loader) (h : HandleId) : Prop :=
  ∃ f x, l.fetches.get? f = some x ∧ x.handle = h ∧ x.stage.goesOn = true

/--
Each active load waits for a handle of its own, whose fetch goes on; `spent` is a handle
whose fetch has just come to its end, and whose load is about to.
-/
structure Awaiting (terms : Terms) (gone : HandleId → Prop) (spent : Option HandleId) (l : Loader) :
    Prop where
  coupled : Coupled l none none
  policy : l.plan.policy = terms.policy
  filed : Filed terms.resolve terms.named l
  keyed : l.registry.fetches = true
  alone : ∀ a x, a ∈ l.active → l.attempts.get? a = some x →
    ∃ y, l.handles.get? x.handle = some y ∧ terms.Serves x.chunk a y
  listed : ∀ a x, a ∈ l.active → l.attempts.get? a = some x →
    x.handle ∈ l.registry.handles ∨ gone x.handle
  /-- Of a chunk with an active load no other handle is registered. -/
  sole : ∀ a x h y, a ∈ l.active → l.attempts.get? a = some x → l.Holds h y →
    terms.Made x.chunk y → h = x.handle
  fetching : ∀ a x, a ∈ l.active → l.attempts.get? a = some x → spent ≠ some x.handle →
    l.Fetching x.handle
  /-- Of an unknown chunk no handle is registered. -/
  known : ∀ h y k, l.Holds h y → terms.Made k y → l.cache.find? k ≠ none

namespace Awaiting

variable {terms : Terms} {gone : HandleId → Prop} {spent : Option HandleId} {l l' : Loader}
  {t : Ticket} {a : AttemptId} {h : HandleId} {e : LoadEvent} {k : ChunkId} {url : String}
  {f : FetchId}

/-- Once no fetch has just come to its end, that of an active load goes on. -/
theorem goes_on (i : Awaiting terms gone none l) {x : Attempt} (ha : a ∈ l.active)
    (hx : l.attempts.get? a = some x) : l.Fetching x.handle :=
  i.fetching a x ha hx (Option.some_ne_none x.handle).symm

theorem made_of_holds (i : Awaiting terms gone spent l) {y : Handle} (hy : l.Holds h y) :
    ∃ k, terms.Made k y := by
  obtain ⟨k, hk, hr, ht⟩ := i.filed.origin h y hy
  exact ⟨k, hk, hr, by rw [ht, i.policy]⟩

/-- Loads stay as they are; handles may be made, and may leave the registry. -/
theorem keep (i : Awaiting terms gone spent l) (c : Coupled l' none none)
    (hp : l'.plan.policy = l.plan.policy) (filed : Filed terms.resolve terms.named l')
    (keyed : l'.registry.fetches = l.registry.fetches) (hat : l'.attempts = l.attempts)
    (hac : ∀ a, a ∈ l'.active ↔ a ∈ l.active)
    (rows : ∀ h y, l.handles.get? h = some y → ∃ y', l'.handles.get? h = some y' ∧ y.Same y')
    (left : ∀ h ∈ l.registry.handles, h ∈ l'.registry.handles ∨ gone h)
    (held : ∀ h y', l'.Holds h y' → ∃ y, l.Holds h y ∧ y'.url = y.url ∧ y'.tag = y.tag)
    (hf : ∀ h, spent ≠ some h → l.Fetching h → l'.Fetching h)
    (known : ∀ k, l.cache.find? k ≠ none → l'.cache.find? k ≠ none) :
    Awaiting terms gone spent l' where
  coupled := c
  policy := hp.trans i.policy
  filed := filed
  keyed := keyed.trans i.keyed
  alone := by
    intro a x ha hx
    rw [hac] at ha
    rw [hat] at hx
    obtain ⟨y, hy, serves⟩ := i.alone a x ha hx
    obtain ⟨y', hy', same⟩ := rows x.handle y hy
    exact ⟨y', hy', serves.same same⟩
  listed := by
    intro a x ha hx
    rw [hac] at ha
    rw [hat] at hx
    exact (i.listed a x ha hx).elim (left x.handle) .inr
  sole := by
    intro a x h y' ha hx hy' made
    rw [hac] at ha
    rw [hat] at hx
    obtain ⟨y, hy, hurl, htag⟩ := held h y' hy'
    exact i.sole a x h y ha hx hy (made.congr hurl.symm htag.symm)
  fetching := by
    intro a x ha hx ho
    rw [hac] at ha
    rw [hat] at hx
    exact hf x.handle ho (i.fetching a x ha hx ho)
  known := by
    intro h y' k hy' made
    obtain ⟨y, hy, hurl, htag⟩ := held h y' hy'
    exact known k (i.known h y k hy (made.congr hurl.symm htag.symm))

/-- Handles and fetches are as they were. -/
theorem congr (i : Awaiting terms gone spent l) (c : Coupled l' none none)
    (hw : l'.plan.wiring = l.plan.wiring) (hp : l'.plan.policy = l.plan.policy)
    (hh : l'.handles = l.handles) (hr : l'.registry = l.registry)
    (hat : l'.attempts = l.attempts) (hac : ∀ a, a ∈ l'.active ↔ a ∈ l.active)
    (hf : l'.fetches = l.fetches)
    (known : ∀ k, l.cache.find? k ≠ none → l'.cache.find? k ≠ none) :
    Awaiting terms gone spent l' := by
  refine i.keep c hp (i.filed.congr hw hp hh hr) (by rw [hr]) hat hac (fun h y hy => ?_)
    (fun h hm => .inl (by rw [hr]; exact hm)) (fun h y hy => ?_) (fun h _ => ?_) known
  · exact ⟨y, by rw [hh]; exact hy, .refl y⟩
  · unfold Holds at hy
    rw [hh, hr] at hy
    exact ⟨y, hy, rfl, rfl⟩
  · unfold Fetching
    rw [hf]
    exact id

/-- Where the coupling stays, what becomes of promises goes unnoticed. -/
theorem beside (i : Awaiting terms gone spent l) (c : Coupled l' none none) (hp : l'.plan = l.plan)
    (hh : l'.handles = l.handles) (hr : l'.registry = l.registry)
    (hat : l'.attempts = l.attempts) (hac : l'.active = l.active) (hf : l'.fetches = l.fetches)
    (hc : l'.cache = l.cache) : Awaiting terms gone spent l' :=
  i.congr c (by rw [hp]) (by rw [hp]) hh hr hat (fun a => by rw [hac]) hf
    fun k => by rw [hc]; exact id

/-- What happens in the event loop and in the log goes unnoticed. -/
theorem loop (i : Awaiting terms gone spent l) (now : Float) (ready : List Job)
    (tasks : Table Task) (log : List LogRecord) (closed : Bool) :
    Awaiting terms gone spent { l with now, ready, tasks, log, closed } :=
  i.beside (i.coupled.congr rfl rfl rfl rfl rfl rfl rfl rfl) rfl rfl rfl rfl rfl rfl rfl

/-- What the client will answer at once goes unnoticed. -/
theorem prompted (i : Awaiting terms gone spent l) (prompts : Pairs String Reply) :
    Awaiting terms gone spent { l with prompts } :=
  i.beside (i.coupled.congr rfl rfl rfl rfl rfl rfl rfl rfl) rfl rfl rfl rfl rfl rfl rfl

/-- Handles may change, as long as they tell the same loads. -/
theorem change (i : Awaiting terms gone spent l) (h : HandleId) {g : Handle → Handle}
    (hg : ∀ y : Handle, y.Same (g y)) : Awaiting terms gone spent (l.changeHandle h g) := by
  refine i.keep (i.coupled.congr rfl rfl rfl rfl rfl rfl rfl rfl) rfl
    (i.filed.changeHandle h fun y => ⟨(hg y).url, (hg y).tag⟩) rfl rfl (fun _ => Iff.rfl)
    (fun h' y hy => ?_) (fun _ => .inl) (fun h' y' hy' => ?_) (fun _ _ => id) fun _ => id
  · by_cases hh : h = h'
    · exact ⟨g y, by rw [changeHandle, Table.get?_update, if_pos hh, hy]; rfl, hg y⟩
    · exact ⟨y, by rw [changeHandle, Table.get?_update, if_neg hh]; exact hy, .refl y⟩
  · obtain ⟨hm, hrow⟩ := hy'
    rw [changeHandle, Table.get?_update] at hrow
    split at hrow
    · obtain ⟨y, hy, rfl⟩ := Option.map_eq_some_iff.mp hrow
      exact ⟨y, ⟨hm, hy⟩, (hg y).url, (hg y).tag⟩
    · exact ⟨y', ⟨hm, hrow⟩, rfl, rfl⟩

/-- A handle is made that is not registered. -/
theorem add (i : Awaiting terms gone spent l) (handle : Handle) :
    Awaiting terms gone spent { l with handles := l.handles.add handle } := by
  refine i.keep (i.coupled.congr rfl rfl rfl rfl rfl rfl rfl rfl) rfl (i.filed.add handle) rfl rfl
    (fun _ => Iff.rfl) (fun h y hy => ⟨y, Table.get?_add_of_some hy handle, .refl y⟩)
    (fun _ => .inl) (fun h y' hy' => ?_) (fun _ _ => id) fun _ => id
  obtain ⟨y, hy⟩ := i.filed.tidy.exists_of_mem hy'.1
  cases hy'.2.symm.trans (Table.get?_add_of_some hy handle)
  exact ⟨y', ⟨hy'.1, hy⟩, rfl, rfl⟩

/-- A handle is taken out of the registry, and this is known. -/
theorem remove (i : Awaiting terms gone spent l) {h : HandleId}
    (hg : h ∈ l.registry.handles → gone h) : Awaiting terms gone spent (l.remove h) := by
  have filed := i.filed.remove h
  have c := i.coupled.remove h
  unfold Loader.remove at filed c ⊢
  split
  · exact i
  · rename_i y hy
    simp only [hy] at filed c
    refine i.keep c rfl filed (Registry.fetches_remove ..) rfl (fun _ => Iff.rfl)
      (fun h' y' hy' => ⟨y', hy', .refl y'⟩) (fun h' hm => ?_)
      (fun h' y' hy' => ⟨y', ⟨Registry.mem_of_mem_remove hy'.1, hy'.2⟩, rfl, rfl⟩)
      (fun _ _ => id) fun _ => id
    by_cases hh : h' = h
    · subst hh
      exact .inr (hg hm)
    · exact .inl (i.filed.tidy.mem_remove_of_ne hm hh)

/-- Of more handles it may be known that they were taken out. -/
theorem mono (i : Awaiting terms gone spent l) {gone' : HandleId → Prop}
    (h : ∀ k, gone k → gone' k) : Awaiting terms gone' spent l :=
  { i with listed := fun a x ha hx => (i.listed a x ha hx).imp_right (h x.handle) }

/-! ### Fetches and shutdowns -/

/-- Fetches and shutdowns move on, but those of the loads that wait go on. -/
theorem unloads (i : Awaiting terms gone spent l) (h : Unloads l l') {spent' : Option HandleId}
    (fetching : ∀ a x, a ∈ l.active → l.attempts.get? a = some x → spent' ≠ some x.handle →
      l'.Fetching x.handle) : Awaiting terms gone spent' l' := by
  have c := i.coupled.unloads h
  obtain ⟨fetches, closings, registry, jobs, rfl, hr, hj, hf⟩ := h
  -- To close the client takes no handle out of the registry.
  have same : registry.handles = l.registry.handles ∧ registry.fetches = l.registry.fetches := by
    rcases hr with rfl | rfl
    · exact ⟨rfl, rfl⟩
    · exact ⟨Registry.handles_shut _, Registry.fetches_shut _⟩
  have held : ∀ h y, ({ l with registry } : Loader).Holds h y → l.Holds h y := fun h y hy =>
    ⟨by rw [← same.1]; exact hy.1, hy.2⟩
  have act : Act (·.isName = terms.named) l .runJob
      { l with fetches, closings, registry, ready := l.ready ++ jobs } :=
    .unloaded fetches closings hr hj hf
  exact
    { coupled := c
      policy := i.policy
      filed := act.filed trivial i.filed
      keyed := same.2.trans i.keyed
      alone := i.alone
      listed := fun a x ha hx => (i.listed a x ha hx).imp_left fun hm => by rw [same.1]; exact hm
      sole := fun a x h y ha hx hy => i.sole a x h y ha hx (held h y hy)
      fetching
      known := fun h y k hy => i.known h y k (held h y hy) }

/-- Fetches and shutdowns move on, and no fetch of a handle that a load may wait for ends by it. -/
theorem unloads_keeping (i : Awaiting terms gone spent l) (h : Unloads l l')
    (hf : ∀ h, spent ≠ some h → l.Fetching h → l'.Fetching h) : Awaiting terms gone spent l' :=
  i.unloads h fun a x ha hx ho => hf x.handle ho (i.fetching a x ha hx ho)

/-- Shutdowns move on and the fetches stay. -/
theorem still (i : Awaiting terms gone spent l) (h : Unloads l l') (hf : l'.fetches = l.fetches) :
    Awaiting terms gone spent l' :=
  i.unloads_keeping h fun _ _ => by
    unfold Fetching
    rw [hf]
    exact id

/-- Where no load waits, any fetch may end. -/
theorem unloads_idle (i : Awaiting terms gone none l) (h : Unloads l l') (hn : l.active = []) :
    Awaiting terms gone none l' :=
  i.unloads h fun a x ha => absurd ha (by rw [hn]; exact List.not_mem_nil)

/-- A fetch moves on to another stage at which it goes on. -/
theorem stage (i : Awaiting terms gone spent l) (f : FetchId) {stage : FetchStage}
    (hs : stage.goesOn = true) : Awaiting terms gone spent (l.setStage f stage) := by
  refine i.unloads_keeping (.setStage l f stage) fun h _ hf => ?_
  obtain ⟨g, x, hx, hh, ho⟩ := hf
  by_cases hfg : f = g
  · refine ⟨g, { x with stage }, ?_, hh, hs⟩
    simp only [setStage, Table.get?_update, if_pos hfg, hx]
    rfl
  · exact ⟨g, x, by simp only [setStage, Table.get?_update, if_neg hfg]; exact hx, hh, ho⟩

/-- The fetch of a handle comes to its end. -/
theorem endFetch (i : Awaiting terms gone none l) {f : FetchId} {x : Fetch}
    (hf : l.fetches.get? f = some x) : Awaiting terms gone (some x.handle) (l.endFetch f) := by
  refine i.unloads (.endFetch l f) fun a y ha hy hne => ?_
  obtain ⟨g, z, hz, hh, ho⟩ := i.goes_on ha hy
  refine ⟨g, z, ?_, hh, ho⟩
  show (l.setStage f .over).fetches.get? g = some z
  rw [setStage, Table.get?_update, if_neg]
  · exact hz
  · rintro rfl
    rw [hf] at hz
    cases hz
    exact hne (congrArg some hh)

/-- A fetch that was cancelled is none that a load waits for, so it may end. -/
theorem endFetch_stopping (i : Awaiting terms gone none l) {f : FetchId}
    (hf : l.fetches.get? f = some { handle := h, stage := .stopping }) :
    Awaiting terms gone none (l.endFetch f) := by
  refine i.unloads_keeping (.endFetch l f) fun h' _ hh => ?_
  obtain ⟨g, z, hz, hh, ho⟩ := hh
  refine ⟨g, z, ?_, hh, ho⟩
  show (l.setStage f .over).fetches.get? g = some z
  rw [setStage, Table.get?_update, if_neg]
  · exact hz
  · rintro rfl
    rw [hf] at hz
    cases hz
    cases ho

/-- The answer that ended the fetch is kept in the handle. -/
theorem records (i : Awaiting terms gone spent (l.endFetch f)) {reply : Reply}
    (r : l.Records f h reply l') : Awaiting terms gone spent l' := by
  obtain ⟨ready, log, rfl⟩ := r
  have recorded := i.change h (g := (·.record reply.record)) fun y => y.same_record _
  exact recorded.loop ..

/-- No load waits for the handle whose fetch is over. -/
theorem close (i : Awaiting terms gone (some h) l) (hn : ¬l.Manned h) :
    Awaiting terms gone none l :=
  { i with
    fetching := fun a x ha hx _ =>
      i.fetching a x ha hx fun heq => hn ⟨a, ha, x, hx, (Option.some.inj heq).symm⟩ }

/-! ### The end of an attempt -/

/-- No two active loads wait for one handle. -/
theorem handle_inj (i : Awaiting terms gone spent l) {b : AttemptId} {x y : Attempt}
    (ha : a ∈ l.active) (hx : l.attempts.get? a = some x) (hb : b ∈ l.active)
    (hy : l.attempts.get? b = some y) (heq : x.handle = y.handle) : a = b := by
  obtain ⟨z, hz, serves⟩ := i.alone a x ha hx
  obtain ⟨z', hz', serves'⟩ := i.alone b y hb hy
  rw [heq, hz'] at hz
  cases hz
  have hslot := serves.onLoad.symm.trans serves'.onLoad
  cases hslot
  rfl

/-- A handle is registered still, so its chunk is not the one that has become unknown. -/
theorem known_ended (i : Awaiting terms gone spent l) (f : l.Flight t a h)
    (n : l.Ended t a h e l') {h' : HandleId} {y' : Handle} (hy' : l'.Holds h' y')
    (made : terms.Made k y') : l'.cache.find? k ≠ none := by
  obtain ⟨y, hy, hurl, htag⟩ := n.held hy'
  have made' : terms.Made k y := made.congr hurl.symm htag.symm
  rw [n.find?]
  split
  · rename_i hk
    subst hk
    have hh : h' = h := i.sole a _ h' y f.active f.load hy made'
    obtain ⟨y₀, hy₀, -⟩ := i.alone a _ f.active f.load
    cases he : e.isLoad with
    | true => simp
    | false =>
      -- The handle of the load is registered no more, and no other is the chunk's.
      have hm := hy'.1
      rw [n.registry, hh] at hm
      exact absurd hm ((l.tidy_registryAfter i.filed.tidy hy₀ e).2 he)
  · exact i.known h' y k hy made'

/-- The attempt of a load ends, and with it the wait for a fetch that may be over. -/
theorem ended (i : Awaiting terms gone spent l) (f : l.Flight t a h) (n : l.Ended t a h e l')
    (c : Coupled l' none none) (ho : ∀ h', spent = some h' → h' = h) :
    Awaiting terms gone none l' := by
  -- The other loads were there before, and wait for other handles.
  have other : ∀ b x, b ∈ l'.active → l'.attempts.get? b = some x →
      b ∈ l.active ∧ l.attempts.get? b = some x ∧ x.handle ≠ h := by
    intro b x hb hx
    obtain ⟨hba, hb, hx⟩ := n.load hb hx
    exact ⟨hb, hx, fun heq => hba (i.handle_inj hb hx f.active f.load heq)⟩
  refine
    { coupled := c
      policy := by rw [n.plan]; exact i.policy
      filed := n.filed i.filed
      keyed := by rw [n.registry, fetches_registryAfter]; exact i.keyed
      alone := ?_
      listed := ?_
      sole := ?_
      fetching := ?_
      known := fun h' y' k hy' made => i.known_ended f n hy' made }
  · intro b x hb hx
    obtain ⟨hb, hx, hne⟩ := other b x hb hx
    rw [n.get?_of_ne hne]
    exact i.alone b x hb hx
  · intro b x hb hx
    obtain ⟨hb, hx, hne⟩ := other b x hb hx
    rw [n.registry]
    exact (i.listed b x hb hx).imp_left fun hm => l.registryAfter_keeps i.filed.tidy e hm hne
  · intro b x h' y' hb hx hy' made
    obtain ⟨hb, hx, -⟩ := other b x hb hx
    obtain ⟨y, hy, hurl, htag⟩ := n.held hy'
    exact i.sole b x h' y hb hx hy (made.congr hurl.symm htag.symm)
  · intro b x hb hx _
    obtain ⟨hb, hx, hne⟩ := other b x hb hx
    unfold Fetching
    rw [n.fetches]
    exact i.fetching b x hb hx fun heq => hne (ho x.handle heq)

theorem settleLoad (i : Awaiting terms gone none l) (a : AttemptId) (e : LoadEvent) :
    ∃ l', l.settleLoad a e = (l', .through) ∧ Awaiting terms gone none l' := by
  by_cases ha : a ∈ l.active
  · obtain ⟨t, h, f⟩ := i.coupled.flight_of_active ha
    obtain ⟨l', hl', c', n⟩ := f.settleLoad i.coupled e
    exact ⟨l', hl', i.ended f n c' (by simp)⟩
  · exact ⟨l, i.coupled.settleLoad_of_inactive ha e, i⟩

/-- A signal ends loads, and at most calls the observer behind them. -/
theorem signal (e : LoadEvent) (foreign : Option CallbackId) (waiting : List AttemptId)
    (i : Awaiting terms gone none l) :
    Awaiting terms gone none (Loader.signal e foreign waiting l).1 := by
  induction waiting generalizing l with
  | nil => cases foreign <;> exact i
  | cons a rest ih =>
    by_cases ha : a ∈ l.active
    · obtain ⟨t, h, f⟩ := i.coupled.flight_of_active ha
      obtain ⟨l', hl', c', n⟩ := f.settleLoad i.coupled e
      rw [f.signal_cons i.coupled hl']
      exact ih (i.ended f n c' (by simp))
    · cases hx : l.attempts.get? a with
      | none =>
        simp only [Loader.signal, hx]
        exact i
      | some x =>
        have hs : x.settled = true := by
          rw [← Bool.not_eq_false]
          exact fun hs => ha (i.coupled.orderly.mem_active_of_unsettled hx hs)
        simp only [Loader.signal, hx, hs, if_true]
        exact i

theorem abortAll (attempts : List AttemptId) (i : Awaiting terms gone none l) :
    ∃ l', Loader.abortAll attempts l = (l', .through) ∧ Awaiting terms gone none l' := by
  induction attempts generalizing l with
  | nil => exact ⟨l, rfl, i⟩
  | cons a rest ih =>
    obtain ⟨l₁, hset, i₁⟩ := i.settleLoad a (l.endSignal a "abort")
    obtain ⟨l', hrest, i'⟩ := ih i₁
    exact ⟨l', by simp only [Loader.abortAll, hset]; exact hrest, i'⟩

/-! ### The start of an attempt -/

/-- For an unknown chunk there is no handle to adopt. -/
theorem findHandle_eq_none (i : Awaiting terms gone spent l) (hk : k.isName = terms.named)
    (hr : terms.resolve k = .ok url) (hf : l.cache.find? k = none) :
    l.findHandle k url = none := by
  cases hfind : l.findHandle k url with
  | none => rfl
  | some h =>
    have means : l.Means k url h := Registry.matching_of_find? i.filed.tidy hfind
    obtain ⟨y, hy, hurl⟩ := i.filed.url_of_means hk hr means
    obtain ⟨k', made⟩ := i.made_of_holds hy
    have hkk := made.eq_of_url hk hr hurl
    subst hkk
    exact absurd hf (i.known h y k' hy made)

/-- The handle that a load makes serves that load. -/
theorem serves_made (i : Awaiting terms gone spent l) (hk : k.isName = terms.named)
    (hr : terms.resolve k = .ok url) :
    terms.Serves k l.attempts.size ((l.madeHandle k url).observe l.attempts.size) where
  made := by
    refine ⟨hk, hr, ?_⟩
    rw [← i.policy]
    rfl
  onLoad := rfl
  onError := rfl
  download := by simp [madeHandle, Handle.observe, Registry.make, i.keyed]

/-- A chunk that has an active load is in flight. -/
theorem chunk_ne (i : Awaiting terms gone spent l) (hf : l.cache.find? k = none) {x : Attempt}
    (ha : a ∈ l.active) (hx : l.attempts.get? a = some x) : x.chunk ≠ k := by
  rintro rfl
  obtain ⟨t, h, f⟩ := i.coupled.flight_of_active ha
  cases hx.symm.trans f.load
  obtain ⟨p, hp, -⟩ := Cache.ticketOf?_eq_some.mp f.ticket
  rw [hf] at hp
  cases hp

theorem started (i : Awaiting terms gone none l) (hk : k.isName = terms.named)
    (hr : terms.resolve k = .ok url) (hf : l.cache.find? k = none) (n : l.Started k url l')
    (c : Coupled l' none none) : Awaiting terms gone none l' := by
  have unfound := i.findHandle_eq_none hk hr hf
  have serves := i.serves_made hk hr
  refine
    { coupled := c
      policy := by rw [n.plan]; exact i.policy
      filed := n.filed unfound i.filed hk hr
      keyed := by rw [n.registry, Registry.fetches_attach]; exact i.keyed
      alone := ?_
      listed := ?_
      sole := ?_
      fetching := ?_
      known := ?_ }
  · intro b x hb hx
    rcases n.load_cases hb hx with ⟨rfl, hc, hh⟩ | ⟨hb, hx⟩
    · exact ⟨_, by rw [hh]; exact n.row, by rw [hc]; exact serves⟩
    · obtain ⟨y, hy, hs⟩ := i.alone b x hb hx
      exact ⟨y, by rw [n.handles]; exact Table.get?_add_of_some hy _, hs⟩
  · intro b x hb hx
    rw [n.registered unfound]
    rcases n.load_cases hb hx with ⟨-, -, hh⟩ | ⟨hb, hx⟩
    · exact .inl (List.mem_append_right _ (List.mem_singleton.mpr hh))
    · exact (i.listed b x hb hx).imp_left (List.mem_append_left _)
  · intro b x h y hb hx hy made
    rcases n.load_cases hb hx with ⟨-, hc, hh⟩ | ⟨hb, hx⟩
    · rcases n.held_cases unfound i.filed.tidy hy with hy | ⟨rfl, -⟩
      · exact absurd hf (i.known h y k hy (hc ▸ made))
      · exact hh.symm
    · rcases n.held_cases unfound i.filed.tidy hy with hy | ⟨-, rfl⟩
      · exact i.sole b x h y hb hx hy made
      · exact absurd (made.eq serves.made) (i.chunk_ne hf hb hx)
  · intro b x hb hx _
    have fetches := n.fetches i.keyed
    rcases n.load_cases hb hx with ⟨-, -, hh⟩ | ⟨hb, hx⟩
    · exact ⟨l.fetches.size, { handle := l.handles.size },
        by rw [fetches]; exact Table.get?_add_size .., hh.symm, rfl⟩
    · obtain ⟨f, z, hz, hzh, ho⟩ := i.goes_on hb hx
      exact ⟨f, z, by rw [fetches]; exact Table.get?_add_of_some hz _, hzh, ho⟩
  · intro h y k' hy made
    rw [n.find]
    split
    · exact Option.some_ne_none _
    · rename_i hne
      rcases n.held_cases unfound i.filed.tidy hy with hy | ⟨-, rfl⟩
      · exact i.known h y k' hy made
      · exact absurd (made.eq serves.made) hne

theorem mark (i : Awaiting terms gone none l) (k : ChunkId) {e : Entry} (he : e.state ≠ .inFlight) :
    Awaiting terms gone none (l.mark k e) := by
  refine i.congr (i.coupled.mark he) rfl rfl rfl rfl rfl (fun _ => Iff.rfl) rfl fun k' hk' => ?_
  obtain ⟨e', he'⟩ := Option.ne_none_iff_exists'.mp hk'
  rw [Loader.mark, Cache.find?_mark_of_some he']
  exact Option.some_ne_none e'

/-- A chunk that has an entry is asked for: a promise is handed out at once. -/
theorem serve_known (i : Awaiting terms gone none l) (hf : l.cache.find? k ≠ none) :
    ∃ l' p, l.serve k = (l', .ok (p, none)) ∧ Awaiting terms gone none (l'.hand k p) := by
  obtain ⟨entry, hentry⟩ := Option.ne_none_iff_exists'.mp hf
  -- The promise that answers the request is one that the coupling allows.
  have coupled : ∀ {l₁ : Loader} {p : PromiseId}, l.serve k = (l₁, .ok (p, none)) →
      Coupled (l₁.hand k p) none none := by
    intro l₁ p hs
    rcases i.coupled.serve k with ⟨l₂, q, hs', c₂, owed⟩ | ⟨l₂, t, hs', -⟩
    · rw [hs] at hs'
      cases hs'
      exact c₂.hand owed
    · rw [hs] at hs'
      cases hs'
  by_cases he : entry.state = .inFlight
  · cases entry with
    | skipped => cases he
    | loaded => cases he
    | inFlight p =>
      obtain ⟨sink, -, hs⟩ := serve_of_inFlight i.coupled.steady hentry
      refine ⟨_, _, hs, i.congr (coupled hs) rfl rfl rfl rfl rfl (fun _ => Iff.rfl) rfl
        fun k' hk' => ?_⟩
      show ({ l.cache with used := true }.join k p).find? k' ≠ none
      rw [Cache.find?_join]
      split
      · exact Option.some_ne_none _
      · exact hk'
  · obtain ⟨sink, ready, -, hs⟩ := serve_of_final i.coupled.steady hentry he
    exact ⟨_, _, hs, i.congr (coupled hs) rfl rfl rfl rfl rfl (fun _ => Iff.rfl) rfl fun _ => id⟩

/-- An unknown chunk is asked for: its attempt is started, or given up at once. -/
theorem serve_unknown (i : Awaiting terms gone none l) (hk : k.isName = terms.named)
    (hf : l.cache.find? k = none) :
    ∃ l₁ t l', l.serve k = (l₁, .ok (t.promise, some t)) ∧ t.chunk = k ∧
      (l₁.start t = (l', .through) ∧ Awaiting terms gone none (l'.hand k t.promise) ∨
        ∃ f, l₁.start t = (l', .fails f) ∧ Awaiting terms gone none l') := by
  obtain ⟨sink, log, steady, hs⟩ := serve_of_unknown i.coupled.steady hf
  obtain ⟨l₁, h₁⟩ : ∃ l₁ : Loader, l₁ =
    { l with
      cache := ({ l.cache with used := true }.begin k l.promises.create.2).1
      promises := l.promises.create.1
      sink
      log } := ⟨_, rfl⟩
  obtain ⟨t, ht⟩ : ∃ t : Ticket,
    t = ⟨k, l.promises.create.2, l.cache.attemptsAt k + 1⟩ := ⟨_, rfl⟩
  have b : l.Begun k t l₁ := ⟨ht, by rw [h₁, ht]; exact i.coupled.begin hf steady, sink, log, h₁⟩
  have hserve : l.serve k = (l₁, .ok (t.promise, some t)) := by rw [hs, h₁, ht]
  cases hr : terms.resolve k with
  | error fault =>
    have hstart := b.start_of_error i.filed.wired hr
    refine ⟨l₁, t, _, hserve, b.chunk, .inr ⟨fault, hstart, ?_⟩⟩
    have c : Coupled { l₁ with cache := l₁.cache.drop k } none none := by
      have honoured : l₁.cache.honours t = true :=
        Cache.honours_of_ticketOf? (b.coupled.fresh t rfl).1
      have given := b.coupled.abandon
      rwa [Loader.abandon, if_pos honoured, b.chunk] at given
    subst h₁
    refine i.congr c rfl rfl rfl rfl rfl (fun _ => Iff.rfl) rfl fun k' hk' => ?_
    have hne : k' ≠ k := fun heq => hk' (heq ▸ hf)
    rw [Cache.find?_drop, if_neg hne, Cache.find?_begin, if_neg hne]
    exact hk'
  | ok url =>
    obtain ⟨l₂, hstart, n⟩ := b.start_of_unfound i.filed.wired hr (i.findHandle_eq_none hk hr hf)
    have c : Coupled (l₂.hand k t.promise) none none := by
      obtain ⟨l₃, c₃, ⟨hs₃, owed⟩ | ⟨fault, hs₃⟩⟩ := b.coupled.start
      · rw [hstart] at hs₃
        cases hs₃
        rw [b.chunk] at owed
        exact c₃.hand owed
      · rw [hstart] at hs₃
        cases hs₃
    exact ⟨l₁, t, l₂, hserve, b.chunk, .inl ⟨hstart, i.started hk hr hf n c⟩⟩

/-- A chunk is asked for, and what the request leaves to do is done. -/
theorem request (i : Awaiting terms gone none l) (hk : k.isName = terms.named) :
    l.request k = (l, .error .closed) ∨
      (∃ l' p, l.request k = (l', .ok (p, none)) ∧ Awaiting terms gone none (l'.hand k p)) ∨
      ∃ l₁ t l', l.request k = (l₁, .ok (t.promise, some t)) ∧ t.chunk = k ∧
        (l₁.start t = (l', .through) ∧ Awaiting terms gone none (l'.hand k t.promise) ∨
          ∃ f, l₁.start t = (l', .fails f) ∧ Awaiting terms gone none l') := by
  have served : ∀ l₀ : Loader, l.request k = l₀.serve k → Awaiting terms gone none l₀ →
      (∃ l' p, l.request k = (l', .ok (p, none)) ∧ Awaiting terms gone none (l'.hand k p)) ∨
      ∃ l₁ t l', l.request k = (l₁, .ok (t.promise, some t)) ∧ t.chunk = k ∧
        (l₁.start t = (l', .through) ∧ Awaiting terms gone none (l'.hand k t.promise) ∨
          ∃ f, l₁.start t = (l', .fails f) ∧ Awaiting terms gone none l') := by
    intro l₀ heq i₀
    rw [heq]
    by_cases hf : l₀.cache.find? k = none
    · exact .inr (i₀.serve_unknown hk hf)
    · exact .inl (i₀.serve_known hf)
  cases hcl : l.closed with
  | true => exact .inl (by simp [Loader.request, hcl])
  | false =>
    cases ha : l.plan.hasAsset k with
    | true => exact .inr (served l (by simp [Loader.request, hcl, ha]) i)
    | false =>
      exact .inr (served (l.mark k .skipped) (by simp [Loader.request, hcl, ha])
        (i.mark k (by simp [Entry.state])))

/-- A task asks for its chunks. -/
theorem collect (task : TaskId) (chunks : List ChunkId) (got : List PromiseId)
    (i : Awaiting terms gone none l) (hk : ∀ k ∈ chunks, k.isName = terms.named) :
    Awaiting terms gone none (Loader.collect task got chunks l).1 := by
  have ends : ∀ {l : Loader}, Awaiting terms gone none l → ∀ r : TaskEnd,
      Awaiting terms gone none (l.endTask task r) := fun i r => i.loop ..
  induction chunks generalizing l got with
  | nil =>
    obtain ⟨tasks, ready, h⟩ := l.await_eq task got
    rw [Loader.collect, h]
    exact i.loop ..
  | cons k rest ih =>
    have hrest : ∀ k ∈ rest, k.isName = terms.named := fun k' hm =>
      hk k' (List.mem_cons_of_mem k hm)
    rcases i.request (hk k (List.mem_cons_self ..)) with
      hr | ⟨l', p, hr, i'⟩ | ⟨l₁, t, l', hr, hchunk, ⟨hs, i'⟩ | ⟨f, hs, i'⟩⟩
    · simp only [Loader.collect, hr]
      exact ends i _
    · simp only [Loader.collect, hr]
      exact ih _ i' hrest
    · simp only [Loader.collect, hr, hs]
      exact ih _ i' hrest
    · simp only [Loader.collect, hr, hs]
      exact ends i' _

/-! ## §3 Operations and jobs -/

theorem drive_signal (i : Awaiting terms gone none l) (s : Slot) (e : LoadEvent) :
    Awaiting terms gone none (l.drive [.signal s e]).1 := by
  rw [fst_drive_single]
  exact i.signal e s.foreign s.waiting

theorem drive_abort (i : Awaiting terms gone none l) (attempts : List AttemptId) :
    Awaiting terms gone none (l.drive [.abort attempts]).1 := by
  rw [fst_drive_single]
  obtain ⟨l', hl', i'⟩ := i.abortAll attempts
  rw [show l.perform (.abort attempts) = _ from hl']
  exact i'

theorem drive_shut (i : Awaiting terms gone none l) (c : ClosingId) :
    Awaiting terms gone none (l.drive [.abort l.active, .shut c]).1 := by
  obtain ⟨l₁, hl₁, -, hn, hd⟩ := i.coupled.drive_shut c
  obtain ⟨l₂, hl₂, i₂⟩ := i.abortAll l.active
  rw [hl₁] at hl₂
  cases hl₂
  rw [hd]
  exact i₂.unloads_idle (.closeRegistry l₁ c) hn

theorem dispatch (i : Awaiting terms gone none l) (h : HandleId) (type : String) :
    Awaiting terms gone none (l.drive (l.dispatch h type)).1 := by
  unfold Loader.dispatch
  split
  · exact i.drive_signal _ _
  · exact i

theorem report (i : Awaiting terms gone none l) (k : ChunkId) (e : LoadEvent) :
    Awaiting terms gone none ((l.report k e).1.drive (l.report k e).2).1 := by
  cases ht : l.cache.ticketOf? k with
  | none =>
    have hr : l.report k e = (l.noteIdle k e, []) := by simp [Loader.report, ht]
    rw [hr]
    exact i.loop ..
  | some t =>
    have hr : l.report k e = (l, [.consult k e, .settle t e]) := by simp [Loader.report, ht]
    have hk := Cache.chunk_of_ticketOf? ht
    subst hk
    obtain ⟨a, h, f⟩ := i.coupled.flight_of_ticket ht
    obtain ⟨l', hl', i'⟩ := i.settleLoad a e
    rw [hr, i.coupled.drive_report ⟨f.active, h, f.load⟩ ht e, hl']
    exact i'

theorem invoke_request (i : Awaiting terms gone none l) (hk : k.isName = terms.named) :
    Yields (Awaiting terms gone none) (l.invoke (.request k)) := by
  rcases i.request hk with
    hr | ⟨l', p, hr, i'⟩ | ⟨l₁, t, l', hr, rfl, ⟨hs, i'⟩ | ⟨f, hs, i'⟩⟩
  · simp only [Loader.invoke, hr]
    exact i
  · simp only [Loader.invoke, hr]
    exact i'
  · simp only [Loader.invoke, hr, Yields, drive, perform, hs]
    exact i'
  · simp only [Loader.invoke, hr, Yields, drive, perform, hs, unwind]
    exact i'

theorem invoke (i : Awaiting terms gone none l) {op : Operation} (hop : op.Outer)
    (ha : (Move.invoke op).Asks (·.isName = terms.named))
    (hu : (Move.invoke op).Unplanted terms.resolve) (hs : ¬(Move.invoke op).WritesSlots)
    (hc : op ≠ .closeRegistry)
    (hg : ∀ h, op = .remove h → h ∈ l.registry.handles → gone h) :
    Yields (Awaiting terms gone none) (l.invoke op) := by
  have aside : ∀ {l₁ : Loader}, Inner l l₁ → Coupled l₁ none none → Awaiting terms gone none l₁ := by
    rintro l₁ ⟨_, _, _, rfl⟩ c
    exact i.beside c rfl rfl rfl rfl rfl rfl rfl
  cases op with
  | request k => exact i.invoke_request ha
  | mark k e => exact i.mark k hop
  | report k e => exact i.report k e
  | reportLater k e =>
    simp only [Loader.invoke]
    split
    · exact i.loop ..
    · exact i
  | redeem t e => exact hop.elim
  | closeCache => exact hop.elim
  | load k url done => exact hop.elim
  | settle k e =>
    simp only [Loader.invoke]
    split
    · exact i
    · exact i.drive_signal _ e
  | closeLoads => exact i.drive_abort l.active
  | closeRegistry => exact absurd rfl hc
  | close =>
    cases hcl : l.closed with
    | true =>
      simp only [Loader.invoke, hcl]
      exact i
    | false =>
      have closed : Awaiting terms gone none { l with closed := true } := i.loop ..
      have closing : Awaiting terms gone none l.closing :=
        closed.still (.newClosing _) rfl
      rw [invoke_close hcl]
      exact closing.drive_shut l.closings.size
  | cancelClosing c => exact i.still (.cancelClosing l c) (fetches_cancelClosing l c)
  | clientClosed c problem =>
    exact i.still (.clientClosed l c problem) (fetches_clientClosed l c problem)
  | plant handle => exact hu.elim
  | create url tag => exact i.add _
  | createPlain url tag => exact i.add _
  | attach h => exact hu.elim
  | remove h => exact i.remove (hg h rfl)
  | complete url type =>
    simp only [Loader.invoke]
    split
    · exact i
    · exact i.dispatch _ type
  | dispatch h type => exact i.dispatch h type
  | notify s e => exact i.drive_signal s e
  | assign h onLoad onError loading =>
    cases onLoad with
    | some s => exact absurd (.inl rfl) hs
    | none =>
      cases onError with
      | some s => exact absurd (.inr rfl) hs
      | none => exact i.change h fun _ => ⟨rfl, rfl, rfl, rfl, rfl⟩
  | ensure chunks => exact i.loop ..
  | cancelPromise p => exact aside (l.inner_cancelPromise p) (i.coupled.settlePromise p .cancelled)
  | cancelTask t => exact aside (l.inner_cancelTask t) (i.coupled.cancelTask t)
  | respond url r =>
    simp only [Loader.invoke, respond]
    split
    · rename_i f hf
      have staged : Awaiting terms gone none (l.setStage f (.answered r)) := i.stage f rfl
      exact staged.loop ..
    · exact i
  | prompt url r => cases r <;> exact i.prompted _

/-- The client answers for a handle that a load waits for: the load ends by the signal. -/
theorem answered (i : Awaiting terms gone none l) {f : FetchId} {reply : Reply}
    (hf : l.fetches.get? f = some { handle := h, stage := .answered reply })
    (flight : l.Flight t a h) :
    ∃ l₁ l', l.Records f h reply l₁ ∧
      (l.takeAnswer f).1.drive (l.takeAnswer f).2 = (l', .finished) ∧
      l₁.Ended t a h (l.signalFrom h reply.signal) l' ∧ Awaiting terms gone none l' := by
  obtain ⟨y, hy, serves⟩ := i.alone a _ flight.active flight.load
  obtain ⟨l₁, records, work⟩ := takeAnswer_eq hf hy
  have i₁ : Awaiting terms gone (some h) l₁ := (i.endFetch hf).records records
  have flight₁ : l₁.Flight t a h := by
    obtain ⟨ready, log, rfl⟩ := records
    exact ⟨flight.ticket, flight.active, flight.load⟩
  obtain ⟨l', hl', c', ended⟩ := flight₁.settleLoad i₁.coupled (l.signalFrom h reply.signal)
  refine ⟨l₁, l', records, ?_, ended,
    i₁.ended flight₁ ended c' fun h' heq => (Option.some.inj heq).symm⟩
  rw [work, serves.slotFor]
  unfold Loader.settleLoad at hl'
  simp only [drive, perform, hl']

theorem takeAnswer (i : Awaiting terms gone none l) (f : FetchId) :
    Awaiting terms gone none ((l.takeAnswer f).1.drive (l.takeAnswer f).2).1 := by
  cases hf : l.fetches.get? f with
  | none =>
    simp only [Loader.takeAnswer, hf]
    exact i
  | some x =>
    obtain ⟨h, stage⟩ := x
    cases stage with
    | answered reply =>
      by_cases hm : l.Manned h
      · obtain ⟨a, ha, x, hx, rfl⟩ := hm
        obtain ⟨t, h, flight⟩ := i.coupled.flight_of_active ha
        cases hx.symm.trans flight.load
        obtain ⟨l₁, l', -, hd, -, i'⟩ := i.answered hf flight
        rw [hd]
        exact i'
      · cases hy : l.handles.get? h with
        | none =>
          simp only [Loader.takeAnswer, hf, hy]
          exact i
        | some y =>
          obtain ⟨l₁, records, work⟩ := takeAnswer_eq hf hy
          rw [work]
          exact (((i.endFetch hf).close hm).records records).drive_signal _ _
    | stopping =>
      simp only [Loader.takeAnswer, hf]
      exact i.endFetch_stopping hf
    | _ =>
      simp only [Loader.takeAnswer, hf]
      exact i

theorem runJob (i : Awaiting terms gone none l) {j : Job} {rest : List Job}
    (hasked : ∀ t chunks b, l.tasks.get? t = some (.created chunks b) →
      ∀ k ∈ chunks, k.isName = terms.named) :
    Awaiting terms gone none
      (({ l with ready := rest }.runJob j).1.drive ({ l with ready := rest }.runJob j).2).1 := by
  have popped : Awaiting terms gone none { l with ready := rest } := i.loop ..
  have aside : ∀ {l₁ : Loader}, Inner l l₁ → Coupled l₁ none none → Awaiting terms gone none l₁ := by
    rintro l₁ ⟨_, _, _, rfl⟩ c
    exact i.beside c rfl rfl rfl rfl rfl rfl rfl
  cases j with
  | report k e => exact popped.report k e
  | startTask task =>
    simp only [Loader.runJob, Loader.startTask]
    split
    · exact popped.loop ..
    · rename_i chunks ht
      rw [fst_drive_single]
      exact popped.collect task chunks [] (hasked task chunks false ht)
    · exact popped
  | childSettled task p =>
    exact aside (l.inner_childSettled rest task p) (popped.coupled.childSettled task p)
  | wakeTask task => exact aside (l.inner_wakeTask rest task) (popped.coupled.wakeTask task)
  | ask f =>
    simp only [Loader.runJob, Loader.ask]
    split
    · split
      · rename_i r _
        have answered : Awaiting terms gone none
            ({ l with ready := rest }.setStage f (.answered r)) := popped.stage f rfl
        exact answered.takeAnswer f
      · have asked : Awaiting terms gone none ({ l with ready := rest }.setStage f .asked) :=
          popped.stage f rfl
        exact asked
    · rename_i hf
      exact popped.endFetch_stopping hf
    · exact popped
  | answer f => exact popped.takeAnswer f
  | forget f => exact popped
  | fetchEnded c f => exact popped.still (.fetchEnded _ c f) (fetches_fetchEnded _ c f)
  | wakeClosing c => exact popped.still (.wakeClosing _ c) (fetches_wakeClosing _ c)

/-- A watchdog fires, and its load ends. -/
theorem fire (i : Awaiting terms gone none l) {target : Float} {work : List Frame}
    (h : l.fireNext? target = some (l', work)) : Awaiting terms gone none (l'.drive work).1 := by
  obtain ⟨w, -, -, hd⟩ := i.coupled.drive_fireNext? h
  have timed : Awaiting terms gone none { l with now := w.due } := i.loop ..
  obtain ⟨l₁, hl₁, i₁⟩ := timed.settleLoad w.attempt (l.endSignal w.attempt "timeout")
  rw [hd, hl₁]
  exact i₁

theorem reorder (i : Awaiting terms gone none l) {active : List AttemptId}
    (hp : active.Perm l.active) : Awaiting terms gone none { l with active } :=
  i.congr (i.coupled.reorder hp) rfl rfl rfl rfl rfl (fun _ => hp.mem_iff) rfl fun _ => id

/-- What has something to fetch may change, but not the addresses. -/
theorem replan (i : Awaiting terms gone none l) (hasAsset : ChunkId → Bool) :
    Awaiting terms gone none (l.replan terms.resolve hasAsset) := by
  have wiring : (l.replan terms.resolve hasAsset).plan.wiring = l.plan.wiring := by
    simp [Loader.replan, i.filed.wired]
  exact i.congr (i.coupled.replan terms.resolve hasAsset) wiring rfl rfl rfl rfl (fun _ => Iff.rfl)
    rfl fun _ => id

end Awaiting

end Loader

end SingleFlight
