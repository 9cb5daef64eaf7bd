/-
SingleFlight.Proofs.Causes — for what promises fail.

Each move ends loads by signals of one type, and the type is read off the move
(`Run.endType?`). Whatever promise fails in the move fails for the cause that
this type stands for: nothing that a loader does on the way makes up a cause of
its own, whether the sink takes what is counted or not.

* `Loader.FailsBy` — since some loader, promises have failed by one type only.
* `Frame.Speaks` — the work speaks of signals of one type only.
* `FailsBy.signal`, `collect`, `drive`, `invoke`, `runJob` — the pieces of work.
* `Run.Rested.fails_by` — moves.
-/
import SingleFlight.Proofs.Conserved

namespace SingleFlight

/-- The work speaks of signals of the given type only; a request speaks of loads at most. -/
def Frame.Speaks (type : Option String) : Frame → Prop
  | .signal _ e => type = some e.type
  | .abort _ => type = some "abort"
  | .start _ => type = some "load"
  | .consult _ e => type = some e.type
  | .settle _ e => type = some e.type
  | .shut _ => type = some "abort"
  | .collect _ _ _ => type = some "load"
  | _ => True

namespace Loader

/-- Since `l₀`, promises have failed for the one cause that signals of the type stand for. -/
structure FailsBy (type : Option String) (l₀ l : Loader) : Prop where
  policy : l.plan.policy = l₀.plan.policy
  failed : ∀ p f, l.promises.outcome? p = some (.failed f) →
    l₀.promises.outcome? p = some (.failed f) ∨
      ∃ s, type = some s ∧ f.cause = LoadFailure.causeOf l₀.plan.policy.timeout s

namespace FailsBy

variable {type : Option String} {l₀ l l' : Loader}

theorem refl (type : Option String) (l : Loader) : FailsBy type l l :=
  ⟨rfl, fun _ _ => .inl⟩

/-! ## §1 Promises -/

/-- Promises stand as they stood. -/
theorem same (i : FailsBy type l₀ l) (hp : l'.plan.policy = l.plan.policy)
    (hq : l'.promises = l.promises) : FailsBy type l₀ l' :=
  ⟨hp.trans i.policy, by rw [hq]; exact i.failed⟩

theorem unloads (i : FailsBy type l₀ l) (h : Unloads l l') : FailsBy type l₀ l' := by
  obtain ⟨fetches, closings, registry, jobs, rfl, -, -, -⟩ := h
  exact i.same rfl rfl

theorem settlePromise (i : FailsBy type l₀ l) (p : PromiseId) {o : Outcome}
    (ho : ∀ f, o = .failed f →
      ∃ s, type = some s ∧ f.cause = LoadFailure.causeOf l.plan.policy.timeout s) :
    FailsBy type l₀ (l.settlePromise p o) := by
  obtain ⟨ready, h⟩ := l.settlePromise_eq p o
  rw [h]
  refine ⟨i.policy, fun q f hq => ?_⟩
  rcases Promises.outcome?_settle_cases _ _ _ hq with hq | ⟨-, -, heq⟩
  · exact i.failed q f hq
  · obtain ⟨s, hs, hf⟩ := ho f heq.symm
    exact .inr ⟨s, hs, by rw [← i.policy]; exact hf⟩

theorem newPromise (i : FailsBy type l₀ l) : FailsBy type l₀ l.newPromise.1 := by
  refine ⟨i.policy, fun q f hq => i.failed q f ?_⟩
  rw [← Promises.outcome?_create]
  exact hq

theorem cancelAll (promises : List PromiseId) (i : FailsBy type l₀ l) :
    FailsBy type l₀ (promises.foldl (fun l p => (l.cancelPromise p).1) l) := by
  induction promises generalizing l with
  | nil => exact i
  | cons p rest ih => exact ih (i.settlePromise p nofun)

theorem cancelTask (i : FailsBy type l₀ l) (t : TaskId) : FailsBy type l₀ (l.cancelTask t).1 := by
  unfold Loader.cancelTask
  split
  · exact i.same rfl rfl
  · split
    · exact (i.cancelAll _).same rfl rfl
    · exact i.same rfl rfl
  · exact i

/-- An attempt ends by a signal of the type. -/
theorem settleEntry (i : FailsBy type l₀ l) (t : Ticket) {e : LoadEvent}
    (he : type = some e.type) : FailsBy type l₀ (l.settleEntry t e) := by
  unfold Loader.settleEntry
  split
  · refine settlePromise (l := { l with cache := l.cache.finish t.chunk }) ?_ _ nofun
    exact i.same rfl rfl
  · refine settlePromise (l := { l with cache := l.cache.drop t.chunk }.note .cache .warning
      (l.failureOf t.chunk e).message) ?_ _ ?_
    · exact i.same rfl rfl
    · rintro _ ⟨⟩
      exact ⟨e.type, he, rfl⟩

theorem redeem (i : FailsBy type l₀ l) (t : Ticket) {e : LoadEvent} (he : type = some e.type) :
    FailsBy type l₀ (l.redeem t e) := by
  unfold Loader.redeem
  split
  · exact i.settleEntry t he
  · exact i.same rfl rfl

theorem closeCache (i : FailsBy type l₀ l) (ht : type = some "abort") :
    FailsBy type l₀ l.closeCache := by
  unfold Loader.closeCache
  generalize l.cache.inFlight = ts
  induction ts generalizing l with
  | nil => exact i
  | cons t rest ih =>
    refine ih (settlePromise (l := { l with cache := l.cache.drop t.chunk }) ?_ _ ?_)
    · exact i.same rfl rfl
    · rintro _ ⟨⟩
      exact ⟨"abort", ht, rfl⟩

theorem abandon (i : FailsBy type l₀ l) (t : Ticket) : FailsBy type l₀ (l.abandon t) := by
  unfold Loader.abandon
  split
  · exact i.same rfl rfl
  · exact i

/-! ## §2 Loads that end -/

/-- To end a load is one thing, to tell of it another. -/
theorem conclude (i : FailsBy type l₀ l) (a : AttemptId) (x : Attempt) (e : LoadEvent) :
    FailsBy type l₀ (l.conclude a x e).1 := by
  obtain ⟨sink, log, refusal, hcon⟩ := l.conclude_shape a x e
  rw [hcon, detach_eq]
  exact i.same rfl rfl

theorem signal {e : LoadEvent} (he : type = some e.type) (foreign : Option CallbackId)
    (waiting : List AttemptId) (i : FailsBy type l₀ l) :
    FailsBy type l₀ (Loader.signal e foreign waiting l).1 :=
  signal_keeps (fun _ a x _ _ i => i.conclude a x e) (fun _ t i => i.redeem t he) foreign waiting i

theorem settleLoad (i : FailsBy type l₀ l) (a : AttemptId) {e : LoadEvent}
    (he : type = some e.type) : FailsBy type l₀ (l.settleLoad a e).1 :=
  i.signal he none [a]

theorem abortAll (ht : type = some "abort") (attempts : List AttemptId) (i : FailsBy type l₀ l) :
    FailsBy type l₀ (Loader.abortAll attempts l).1 :=
  abortAll_keeps (fun l a i => i.settleLoad a (e := l.endSignal a "abort") ht) attempts i

theorem consult (i : FailsBy type l₀ l) (chunk : ChunkId) {e : LoadEvent}
    (he : type = some e.type) : FailsBy type l₀ (l.consult chunk e).1 := by
  unfold Loader.consult
  split
  · exact i
  · exact i
  · split
    · exact i
    · exact i.settleLoad _ he

/-! ## §3 Requests -/

theorem serve (i : FailsBy type l₀ l) (chunk : ChunkId) : FailsBy type l₀ (l.serve chunk).1 := by
  have used : FailsBy type l₀ { l with cache := { l.cache with used := true } } := i.same rfl rfl
  unfold Loader.serve
  dsimp only
  split
  · split
    · rename_i hc
      rw [← (Prod.mk.inj hc).1]
      exact used.same rfl rfl
    · rename_i hc
      rw [← (Prod.mk.inj hc).1]
      exact used.same rfl rfl
  · split
    · rename_i hc
      rw [← (Prod.mk.inj hc).1]
      exact used.same rfl rfl
    · rename_i l₁ hc
      have counted : FailsBy type l₀ l₁ := by
        rw [← (Prod.mk.inj hc).1]
        exact used.same rfl rfl
      exact counted.newPromise.settlePromise _ nofun
  · split
    · rename_i hc
      rw [← (Prod.mk.inj hc).1]
      exact used.newPromise.same rfl rfl
    · rename_i hc
      rw [← (Prod.mk.inj hc).1]
      exact used.newPromise.same rfl rfl

theorem request (i : FailsBy type l₀ l) (chunk : ChunkId) :
    FailsBy type l₀ (l.request chunk).1 := by
  unfold Loader.request
  split
  · exact i
  · split
    · exact i.serve chunk
    · have skipped : FailsBy type l₀ (l.mark chunk .skipped) := i.same rfl rfl
      exact skipped.serve chunk

/-- A load begins without a word to the cache. -/
theorem load (i : FailsBy type l₀ l) (chunk : ChunkId) (url : String) (done : Done) :
    FailsBy type l₀ (l.load chunk url done).1 := by
  obtain ⟨_, _, _, _, _, _, _, _, _, loaded⟩ := l.load_shape chunk url done
  rw [loaded]
  exact i.same rfl rfl

theorem start (i : FailsBy type l₀ l) (ht : type = some "load") (t : Ticket) :
    FailsBy type l₀ (l.start t).1 := by
  unfold Loader.start
  split
  · exact i
  · rename_i resolve _
    unfold fetch
    split
    · exact i.abandon t
    · rename_i url _
      have loaded := i.load t.chunk url (.redeem t)
      cases hl : l.load t.chunk url (.redeem t) with
      | mk l₁ answer =>
        rw [hl] at loaded
        rcases answer with f | ⟨h, _ | a⟩
        · exact loaded.abandon t
        · exact loaded
        · have ended := loaded.settleLoad a (e := l₁.signalFrom h "load") ht
          cases hs : l₁.settleLoad a (l₁.signalFrom h "load") with
          | mk l₂ flow =>
            rw [hs] at ended
            simp only [hs]
            cases flow with
            | through => exact ended
            | calls c left => exact ended
            | fails f => exact ended.abandon t

theorem collect (ht : type = some "load") (task : TaskId) (chunks : List ChunkId)
    (got : List PromiseId) (i : FailsBy type l₀ l) :
    FailsBy type l₀ (Loader.collect task got chunks l).1 := by
  refine collect_keeps (fun _ chunk i => i.request chunk) (fun _ t i => i.start ht t)
    (fun _ _ _ i => i.same rfl rfl) (fun l got i => ?awaited) (fun _ _ i => i.same rfl rfl) chunks
    got i
  case awaited =>
    obtain ⟨tasks, ready, h⟩ := l.await_eq task got
    rw [h]
    exact i.same rfl rfl

/-! ## §4 Stacks of work -/

theorem perform (i : FailsBy type l₀ l) {frame : Frame} (hf : frame.Speaks type) :
    FailsBy type l₀ (l.perform frame).1 := by
  cases frame with
  | signal s e => exact i.signal hf s.foreign s.waiting
  | abort attempts => exact i.abortAll hf attempts
  | start t => exact i.start hf t
  | started t => exact i
  | hand chunk p => exact i.same rfl rfl
  | consult chunk e => exact i.consult chunk hf
  | settle t e =>
    unfold Loader.perform
    dsimp only
    split
    · exact i.settleEntry t hf
    · exact i
  | shut c => exact (i.closeCache hf).unloads (.closeRegistry _ c)
  | collect task got rest => exact i.collect hf task rest got

theorem drive {frames : List Frame} (hf : ∀ f ∈ frames, f.Speaks type) (i : FailsBy type l₀ l) :
    FailsBy type l₀ (Loader.drive frames l).1 :=
  drive_keeps (fun _ _ speaks i => i.perform speaks) (fun _ t i => i.abandon t)
    (fun _ _ _ i => i.same rfl rfl) (fun _ _ _ _ i => i.same rfl rfl) hf i

theorem drive_single (i : FailsBy type l₀ l) (frame : Frame) (hf : frame.Speaks type) :
    FailsBy type l₀ (l.drive [frame]).1 := by
  refine i.drive fun f hm => ?_
  rw [List.mem_singleton.mp hm]
  exact hf

theorem drive_pair (i : FailsBy type l₀ l) (frame frame' : Frame) (hf : frame.Speaks type)
    (hf' : frame'.Speaks type) : FailsBy type l₀ (l.drive [frame, frame']).1 := by
  refine i.drive fun f hm => ?_
  rcases List.mem_pair.mp hm with rfl | rfl
  · exact hf
  · exact hf'

/-! ### Operations -/

theorem report (i : FailsBy type l₀ l) (chunk : ChunkId) {e : LoadEvent}
    (he : type = some e.type) :
    FailsBy type l₀ ((l.report chunk e).1.drive (l.report chunk e).2).1 := by
  unfold Loader.report
  split
  · exact i.same rfl rfl
  · exact i.drive_pair (.consult chunk e) (.settle _ e) he he

theorem dispatch (i : FailsBy type l₀ l) (h : HandleId) {s : String} (ht : type = some s) :
    FailsBy type l₀ (l.drive (l.dispatch h s)).1 := by
  unfold Loader.dispatch
  split
  · exact i.drive_single (.signal _ _) ht
  · exact i

theorem invoke (i : FailsBy type l₀ l) {op : Operation} (hop : op.Outer)
    (ht : type = op.endType?) : Yields (FailsBy type l₀) (l.invoke op) := by
  cases op with
  | request chunk =>
    have requested := i.request chunk
    simp only [Loader.invoke]
    cases hr : l.request chunk with
    | mk l₁ answer =>
      rw [hr] at requested
      rcases answer with f | ⟨p, _ | t⟩
      · exact requested
      · exact requested.same rfl rfl
      · exact requested.drive_pair (.start t) (.hand chunk p) ht trivial
  | mark chunk e => exact i.same rfl rfl
  | report chunk e => exact i.report chunk ht
  | reportLater chunk e =>
    simp only [Loader.invoke]
    split
    · exact i.same rfl rfl
    · exact i
  | redeem t e => exact hop.elim
  | closeCache => exact hop.elim
  | load chunk url done => exact hop.elim
  | settle chunk e =>
    simp only [Loader.invoke]
    split
    · exact i
    · exact i.drive_single (.signal _ _) ht
  | closeLoads => exact i.drive_single (.abort _) ht
  | closeRegistry => exact i.unloads ((Unloads.newClosing l).trans (.closeRegistry _ _))
  | close =>
    cases hcl : l.closed with
    | true =>
      simp only [Loader.invoke, hcl]
      exact i
    | false =>
      have closing : FailsBy type l₀ l.closing := i.same rfl rfl
      rw [invoke_close hcl]
      exact closing.drive_pair (.abort _) (.shut _) ht ht
  | cancelClosing c => exact i.unloads (.cancelClosing l c)
  | clientClosed c problem => exact i.unloads (.clientClosed l c problem)
  | plant handle => exact i.same rfl rfl
  | create url tag => exact i.same rfl rfl
  | createPlain url tag => exact i.same rfl rfl
  | attach h =>
    obtain ⟨registry, fetches, ready, h'⟩ := l.outer_attach h
    have attached : FailsBy type l₀ (l.attach h).1 := by
      rw [h']
      exact i.same rfl rfl
    simp only [Loader.invoke]
    cases ha : l.attach h with
    | mk l' refusal =>
      rw [ha] at attached
      cases refusal <;> exact attached
  | remove h =>
    obtain ⟨registry, fetches, ready, h'⟩ := l.outer_remove h
    show FailsBy type l₀ (l.remove h)
    rw [h']
    exact i.same rfl rfl
  | complete url s =>
    simp only [Loader.invoke]
    split
    · exact i
    · exact i.dispatch _ ht
  | dispatch h s => exact i.dispatch h ht
  | notify s e => exact i.drive_single (.signal _ _) ht
  | assign h onLoad onError loading => exact i.same rfl rfl
  | ensure chunks => exact i.same rfl rfl
  | cancelPromise p => exact i.settlePromise p (by simp)
  | cancelTask t => exact i.cancelTask t
  | respond url r => exact i.unloads (.respond l url r)
  | prompt url r => cases r <;> exact i.same rfl rfl

/-! ### Jobs -/

theorem takeAnswer (i : FailsBy type l₀ l) (f : FetchId)
    (ht : type = l.jobEndType? (.answer f)) :
    FailsBy type l₀ ((l.takeAnswer f).1.drive (l.takeAnswer f).2).1 := by
  unfold Loader.takeAnswer
  split
  · rename_i h reply hf
    split
    · rename_i x hx
      obtain ⟨log, htake⟩ := takeReply_record (l := l.endFetch f) hx x.url reply
      have signalled : type = some reply.signal := by rw [ht, jobEndType?, hf]
      have recorded : FailsBy type l₀
          { l.endFetch f with
            handles := l.handles.update h (·.record reply.record)
            log := l.log ++ log } := i.same rfl rfl
      rw [htake]
      exact recorded.drive_single (.signal _ _) signalled
    · exact i.same rfl rfl
  · exact i.unloads (.endFetch l f)
  · exact i

theorem runJob (i : FailsBy type l₀ l) {j : Job} (ht : type = l.jobEndType? j) :
    FailsBy type l₀ ((l.runJob j).1.drive (l.runJob j).2).1 := by
  cases j with
  | report chunk e => exact i.report chunk ht
  | startTask t =>
    simp only [Loader.runJob, Loader.startTask]
    split
    · exact i.same rfl rfl
    · exact i.drive_single (.collect _ _ _) ht
    · exact i
  | childSettled t p =>
    obtain ⟨tasks, ready, h⟩ := l.childSettled_eq t p
    simp only [Loader.runJob, h]
    exact i.same rfl rfl
  | wakeTask t =>
    obtain ⟨tasks, h⟩ := l.wakeTask_eq t
    simp only [Loader.runJob, h]
    exact i.same rfl rfl
  | ask f =>
    simp only [Loader.runJob, Loader.ask]
    split
    · rename_i h hf
      cases hprompt : l.promptFor? h with
      | some reply =>
        have answered : FailsBy type l₀ (l.setStage f (.answered reply)) :=
          i.unloads (.setStage l f _)
        exact answered.takeAnswer f (ht.trans (jobEndType?_ask hf hprompt).symm)
      | none => exact i.unloads (.setStage l f _)
    · exact i.unloads (.endFetch l f)
    · exact i
  | answer f => exact i.takeAnswer f ht
  | forget f => exact i
  | fetchEnded c f => exact i.unloads (.fetchEnded l c f)
  | wakeClosing c => exact i.unloads (.wakeClosing l c)

end FailsBy

end Loader

/-! ## §5 Moves -/

/-- Whatever promise fails in a move of code outside fails for the cause that the move's type means. -/
theorem Run.Rested.fails_by {asked : ChunkId → Prop} {r : Run} {m : Move} (h : r.Rested asked)
    (hm : m.Outer) : Loader.FailsBy (r.endType? m) r.loader (r.step m).loader := by
  have none := Loader.FailsBy.refl (r.endType? m) r.loader
  refine h.step_keeps none ?invoked ?ran ?fired (fun now _ => none.same rfl rfl)
    (fun active _ _ => none.same rfl rfl) (fun resolve hasAsset _ => none.same rfl rfl)
  case invoked =>
    rintro op rfl
    exact none.invoke hm rfl
  case ran =>
    rintro j rest rfl - hready
    have popped : Loader.FailsBy (r.endType? .runJob) r.loader { r.loader with ready := rest } :=
      none.same rfl rfl
    refine popped.runJob ?_
    rw [endType?, Loader.nextJob?, hready]
    rfl
  case fired =>
    rintro target l work rfl hfire
    obtain ⟨w, hw, heq⟩ := Option.map_eq_some_iff.mp hfire
    cases heq
    have fired : Loader.FailsBy (r.endType? (.fire target)) r.loader
        ({ r.loader with now := w.due }.disarm w.attempt) := none.same rfl rfl
    exact fired.drive_single (.signal _ _) rfl

end SingleFlight
