/-
SingleFlight.Proofs.Stirring — what one move does to fetches and shutdowns.

Most of what happens to a loader is nothing to the fetches that are under way and
to the shutdowns that wait for them (`Loader.Untouched`). `Loader.Stirs` lists the
rest: a fetch asks the client, or comes to its end; a shutdown hears of it, goes
on, is cancelled, or has its client closed; one begins. Every move is one of these
(`Run.Rested.stirs`), so that a law about fetches and shutdowns is proved by going
through the list once.

* `Loader.Stirs` — the list; `Run.Rested.stirs` — each move is on it.
* `Closing.Goes`, `Stirs.goes` — how far one move can bring one shutdown.
* `Stirs.isOver`, `Runs.ready` — what is over stays so, what is queued waits its turn.
-/
import SingleFlight.Proofs.Late
import SingleFlight.Proofs.Untouched

namespace SingleFlight

namespace Loader

variable {l l' : Loader}

/-! ## §1 Operations and jobs that are not about fetches -/

namespace Untouched

/-- A job is queued that has nothing to tell a fetch or a shutdown. -/
theorem queue (l : Loader) {j : Job} (hj : ¬j.OfFetches) : Untouched l (l.queue j) :=
  beside rfl rfl .refl rfl [j] rfl (by simpa using hj)

theorem changeHandle (l : Loader) (h : HandleId) (f : Handle → Handle) :
    Untouched l (l.changeHandle h f) :=
  same rfl rfl (.update _ _) rfl rfl

theorem changeWait (l : Loader) (t : TaskId) (f : Wait → Wait) : Untouched l (l.changeWait t f) :=
  same rfl rfl .refl rfl rfl

theorem report (l : Loader) (chunk : ChunkId) (e : LoadEvent) :
    Untouched l ((l.report chunk e).1.drive (l.report chunk e).2).1 := by
  unfold Loader.report
  split
  · exact books l l.cache l.promises l.handed l.sink _
  · refine drive (fun f hm => ?_) l
    rcases List.mem_pair.mp hm with rfl | rfl
    · trivial
    · trivial

theorem drive_single (frame : Frame) (hf : frame.BeforeShut) (l : Loader) :
    Untouched l (l.drive [frame]).1 :=
  drive (fun f hm => by rw [List.mem_singleton.mp hm]; exact hf) l

theorem dispatch (l : Loader) (h : HandleId) (type : String) :
    Untouched l (l.drive (l.dispatch h type)).1 := by
  unfold Loader.dispatch
  split
  · exact drive_single (.signal _ _) trivial l
  · exact refl l

theorem remove (l : Loader) (h : HandleId) : Untouched l (l.remove h) := by
  have client := client?_remove l h
  unfold Loader.remove at client ⊢
  split at client
  · exact refl l
  · exact same rfl client .refl rfl rfl

theorem cancelTask (l : Loader) (t : TaskId) : Untouched l (l.cancelTask t).1 := by
  unfold Loader.cancelTask
  split
  · exact same rfl rfl .refl rfl rfl
  · split
    · rename_i w _ _
      have cancelled : Untouched l (w.children.foldl (fun l p => (l.cancelPromise p).1) l) :=
        List.foldlRecOn _ _ (refl l) fun l' h p _ => h.trans (settlePromise l' p .cancelled)
      exact cancelled.trans (changeWait _ t _)
    · exact changeWait l t _
  · exact refl l

theorem childSettled (l : Loader) (t : TaskId) (p : PromiseId) :
    Untouched l (l.childSettled t p) := by
  unfold Loader.childSettled
  split
  · split
    · exact changeWait l t _
    · dsimp only
      split
      · exact (changeWait l t _).trans (queue _ id)
      · exact changeWait l t _
  · exact refl l

theorem wakeTask (l : Loader) (t : TaskId) : Untouched l (l.wakeTask t) := by
  obtain ⟨tasks, h⟩ := l.wakeTask_eq t
  rw [h]
  exact same rfl rfl .refl rfl rfl

theorem startTask (l : Loader) (t : TaskId) :
    Untouched l ((l.startTask t).1.drive (l.startTask t).2).1 := by
  unfold Loader.startTask
  split
  · exact endTask l t .cancelled
  · exact drive_single (.collect t [] _) trivial l
  · exact refl l

end Untouched

/-! ## §2 The list -/

/-- A job that has nothing to do for fetches and shutdowns. -/
def Idles (l : Loader) : Job → Prop
  | .ask f => ∀ x, l.fetches.get? f = some x → x.stage ≠ .created ∧ x.stage ≠ .stopping
  | .answer f => ∀ x, l.fetches.get? f = some x → x.stage ≠ .stopping ∧
      ∀ r, x.stage = .answered r → l.handles.get? x.handle = none
  | .fetchEnded _ _ => False
  | .wakeClosing _ => False
  | _ => True

/-- What a job does to the fetches and the shutdowns of a loader; `rest` is the queue after it. -/
inductive Runs (l : Loader) (rest : List Job) : Job → Loader → Prop
  | aside {j : Job} {l' : Loader} (hj : l.Idles j) (h : Untouched { l with ready := rest } l') :
      Runs l rest j l'
  | asked {f : FetchId} {h : HandleId} (hf : l.fetches.get? f = some { handle := h }) :
      Runs l rest (.ask f) ({ l with ready := rest }.setStage f .asked)
  /-- A fetch ends; its handle may signal, and then loads end with it. -/
  | ended {j : Job} {f : FetchId} {x : Fetch} {l' : Loader} (hj : j = .ask f ∨ j = .answer f)
      (hf : l.fetches.get? f = some x) (h : Untouched ({ l with ready := rest }.endFetch f) l') :
      Runs l rest j l'
  | heard (c : ClosingId) (f : FetchId) :
      Runs l rest (.fetchEnded c f) ({ l with ready := rest }.fetchEnded c f)
  | woken (c : ClosingId) : Runs l rest (.wakeClosing c) ({ l with ready := rest }.wakeClosing c)

/-- What a move does to the fetches and the shutdowns of a loader. -/
inductive Stirs (l : Loader) : Move → Loader → Prop
  | spared {m : Move} {l' : Loader} (h : Untouched l l') : Stirs l m l'
  | ran {j : Job} {rest : List Job} {l' : Loader} (hq : l.ready = j :: rest)
      (h : Runs l rest j l') : Stirs l .runJob l'
  | responded (url : String) (r : Reply) : Stirs l (.invoke (.respond url r)) (l.respond url r).1
  /-- A shutdown begins, ends the loads if it is one of the loader, and turns to the registry. -/
  | shut {m : Move} {l₁ : Loader} (h : Untouched l.newClosing.1 l₁) :
      Stirs l m (l₁.closeRegistry l.closings.size)
  /-- A shutdown begins, and is over with an error before it gets to the registry. -/
  | failed {m : Move} {l₁ : Loader} (f : Fault) (h : Untouched l.newClosing.1 l₁) :
      Stirs l m (l₁.setClosing l.closings.size (.over (.fault f)))
  | released (c : ClosingId) (problem : Option Fault) :
      Stirs l (.invoke (.clientClosed c problem)) (l.clientClosed c problem).1
  | cancelled (c : ClosingId) : Stirs l (.invoke (.cancelClosing c)) (l.cancelClosing c).1

theorem Stirs.refl (l : Loader) (m : Move) : Stirs l m l :=
  .spared (.refl l)

/-! ### Jobs -/

/-- That a fetch had its answer for a moment makes no difference to its end. -/
theorem endFetch_setStage (l : Loader) (f : FetchId) (stage : FetchStage) :
    (l.setStage f stage).endFetch f = l.endFetch f := by
  have twice : (l.fetches.update f ({ · with stage })).update f ({ · with stage := .over }) =
      l.fetches.update f ({ · with stage := .over }) := Table.update_update ..
  unfold endFetch
  simp only [setStage, twice]
  rfl

/-- A fetch that has its answer comes to its end. -/
theorem untouched_takeAnswer {f : FetchId} {h : HandleId} {r : Reply} {handle : Handle}
    (hf : l.fetches.get? f = some { handle := h, stage := .answered r })
    (hh : l.handles.get? h = some handle) :
    Untouched (l.endFetch f) ((l.takeAnswer f).1.drive (l.takeAnswer f).2).1 := by
  obtain ⟨log, htake⟩ := takeAnswer_record hf hh
  rw [htake]
  have recorded : Untouched (l.endFetch f)
      { l with
        handles := l.handles.update h (·.record r.record)
        fetches := l.fetches.update f ({ · with stage := .over })
        ready := l.ready ++ .forget f :: l.endings f
        log := l.log ++ log } := .same rfl rfl (.update _ _) rfl rfl
  exact recorded.trans (.drive_single (.signal _ _) trivial _)

theorem runs_ask (l : Loader) (rest : List Job) (f : FetchId) : Runs l rest (.ask f)
    (({ l with ready := rest }.ask f).1.drive ({ l with ready := rest }.ask f).2).1 := by
  cases hf : l.fetches.get? f with
  | none =>
    simp only [Loader.ask, hf]
    exact .aside (fun x hx => by rw [hf] at hx; cases hx) (.refl _)
  | some x =>
    obtain ⟨h, stage⟩ := x
    cases stage with
    | created =>
      cases hp : { l with ready := rest }.promptFor? h with
      | none =>
        simp only [Loader.ask, hf, hp]
        exact .asked hf
      | some r =>
        obtain ⟨handle, hh, -⟩ := Option.bind_eq_some_iff.mp hp
        have answered := Table.get?_update_self (t := l.fetches) hf
          ({ · with stage := .answered r })
        have ends := untouched_takeAnswer (l := { l with ready := rest }.setStage f (.answered r))
          answered hh
        rw [endFetch_setStage] at ends
        simp only [Loader.ask, hf, hp]
        exact .ended (.inl rfl) hf ends
    | stopping =>
      simp only [Loader.ask, hf]
      exact .ended (.inl rfl) hf (.refl _)
    | _ =>
      simp only [Loader.ask, hf]
      exact .aside (fun x hx => by rw [hf] at hx; cases hx; simp) (.refl _)

theorem runs_answer (l : Loader) (rest : List Job) (f : FetchId) : Runs l rest (.answer f)
    (({ l with ready := rest }.takeAnswer f).1.drive ({ l with ready := rest }.takeAnswer f).2).1 := by
  cases hf : l.fetches.get? f with
  | none =>
    simp only [Loader.takeAnswer, hf]
    exact .aside (fun x hx => by rw [hf] at hx; cases hx) (.refl _)
  | some x =>
    obtain ⟨h, stage⟩ := x
    cases stage with
    | answered r =>
      cases hh : l.handles.get? h with
      | none =>
        simp only [Loader.takeAnswer, hf, hh]
        refine .aside (fun x hx => ?_) (.refl _)
        rw [hf] at hx
        cases hx
        exact ⟨by rintro ⟨⟩, fun _ _ => hh⟩
      | some handle =>
        exact .ended (.inr rfl) hf (untouched_takeAnswer (l := { l with ready := rest }) hf hh)
    | stopping =>
      simp only [Loader.takeAnswer, hf]
      exact .ended (.inr rfl) hf (.refl _)
    | _ =>
      simp only [Loader.takeAnswer, hf]
      exact .aside (fun x hx => by rw [hf] at hx; cases hx; simp) (.refl _)

theorem runs_runJob (l : Loader) (rest : List Job) (j : Job) : Runs l rest j
    (({ l with ready := rest }.runJob j).1.drive ({ l with ready := rest }.runJob j).2).1 := by
  cases j with
  | report chunk e => exact .aside trivial (.report _ chunk e)
  | startTask t => exact .aside trivial (.startTask _ t)
  | childSettled t p => exact .aside trivial (.childSettled _ t p)
  | wakeTask t => exact .aside trivial (.wakeTask _ t)
  | ask f => exact runs_ask l rest f
  | answer f => exact runs_answer l rest f
  | forget f => exact .aside trivial (.refl _)
  | fetchEnded c f => exact .heard c f
  | wakeClosing c => exact .woken c

end Loader

/-! ### Operations -/

namespace Run

open Loader (Stirs Untouched)

variable {asked : ChunkId → Prop} {r : Run}

theorem Rested.stirs_close (h : r.Rested asked) :
    Stirs r.loader (.invoke .close) (r.step (.invoke .close)).loader := by
  cases ho : r.loader.closed with
  | true =>
    have closed : r.step (.invoke .close) = { r with answers := r.answers ++ [.nothing] } := by
      simp [step, Loader.invoke, ho, Loader.atOnce, Loader.drive, after]
    rw [closed]
    exact .refl ..
  | false =>
    have begun : Untouched r.loader.newClosing.1 r.loader.closing := .same rfl rfl .refl rfl rfl
    rcases h.step_close ho with ⟨l, habort, hstep⟩ | ⟨l, f, habort, hstep⟩
    all_goals
      have aborted := begun.trans (.abortAll r.loader.active r.loader.closing)
      rw [habort] at aborted
      rw [hstep]
    · exact .shut (aborted.trans (.closeCache l))
    · exact .failed f aborted

end Run

namespace Loader

variable {l : Loader}

/-- An operation that is not about shutdowns. -/
theorem stirs_invoke {op : Operation} (hc : op ≠ .close) :
    Yields (Stirs l (.invoke op)) (l.invoke op) := by
  cases op with
  | request chunk =>
    have requested := Untouched.request l chunk
    simp only [invoke]
    cases hr : l.request chunk with
    | mk l₁ answer =>
      rw [hr] at requested
      rcases answer with f | ⟨p, _ | t⟩
      · exact .spared requested
      · exact .spared (requested.trans (.books l₁ _ _ _ _ _))
      · refine .spared (requested.trans (.drive (fun f hm => ?_) l₁))
        rcases List.mem_pair.mp hm with rfl | rfl
        · trivial
        · trivial
  | mark chunk e => exact .spared (.books l _ _ _ _ _)
  | report chunk e => exact .spared (.report l chunk e)
  | reportLater chunk e =>
    simp only [invoke]
    split
    · exact .spared (.queue l id)
    · exact .refl ..
  | redeem t e => exact .spared (.redeem l t e)
  | closeCache => exact .spared (.closeCache l)
  | load chunk url done =>
    have loaded := Untouched.load l chunk url done
    simp only [invoke]
    cases hl : l.load chunk url done with
    | mk l₁ answer =>
      rw [hl] at loaded
      rcases answer with f | ⟨h, _ | a⟩
      · exact .spared loaded
      · exact .spared loaded
      · exact .spared (loaded.trans (.drive_single (.signal _ _) trivial l₁))
  | settle chunk e =>
    simp only [invoke]
    split
    · exact .refl ..
    · exact .spared (.drive_single (.signal _ _) trivial l)
  | closeLoads => exact .spared (.drive_single (.abort _) trivial l)
  | closeRegistry => exact .shut (.refl _)
  | close => exact absurd rfl hc
  | cancelClosing c => exact .cancelled c
  | clientClosed c problem => exact .released c problem
  | plant handle => exact .spared (.same rfl (Registry.client?_plant ..) (.add _) rfl rfl)
  | create url tag => exact .spared (.same rfl rfl (.add _) rfl rfl)
  | createPlain url tag => exact .spared (.same rfl rfl (.add _) rfl rfl)
  | attach h =>
    have attached := Untouched.attach l h
    simp only [invoke]
    cases ha : l.attach h with
    | mk l₁ refusal =>
      rw [ha] at attached
      cases refusal with
      | none => exact .spared attached
      | some f => exact .spared attached
  | remove h => exact .spared (.remove l h)
  | complete url type =>
    simp only [invoke]
    split
    · exact .refl ..
    · exact .spared (.dispatch l _ type)
  | dispatch h type => exact .spared (.dispatch l h type)
  | notify s e => exact .spared (.drive_single (.signal s e) trivial l)
  | assign h onLoad onError loading => exact .spared (.changeHandle l h _)
  | ensure chunks =>
    have added : Untouched l { l with tasks := l.tasks.add (.created chunks false) } :=
      .same rfl rfl .refl rfl rfl
    exact .spared (added.trans (.queue _ id))
  | cancelPromise p => exact .spared (.settlePromise l p .cancelled)
  | cancelTask t => exact .spared (.cancelTask l t)
  | respond url r => exact .responded url r
  | prompt url r => cases r <;> exact .spared (.same rfl rfl .refl rfl rfl)

end Loader

namespace Run

open Loader (Stirs Untouched)

variable {asked : ChunkId → Prop} {r : Run}

/-- Every move is on the list. -/
theorem Rested.stirs (h : r.Rested asked) (m : Move) : Stirs r.loader m (r.step m).loader := by
  by_cases hm : m = .invoke .close
  · subst hm
    exact h.stirs_close
  · refine h.step_keeps (P := Stirs r.loader m) (.refl ..) ?invoked ?ran ?fired ?clocked ?reordered
      ?replanned
    case invoked =>
      rintro op rfl
      exact Loader.stirs_invoke fun hop => hm (congrArg Move.invoke hop)
    case ran =>
      rintro j rest rfl - hready
      exact .ran hready (Loader.runs_runJob _ rest j)
    case fired =>
      rintro target l work rfl hfire
      obtain ⟨w, -, heq⟩ := Option.map_eq_some_iff.mp hfire
      cases heq
      have ready : Untouched r.loader ({ r.loader with now := w.due }.disarm w.attempt) :=
        .same rfl rfl .refl rfl rfl
      exact .spared (ready.trans (.drive_single (.signal _ _) trivial _))
    case clocked => exact fun now _ => .spared (.same rfl rfl .refl rfl rfl)
    case reordered => exact fun active _ _ => .spared (.same rfl rfl .refl rfl rfl)
    case replanned => exact fun resolve hasAsset _ => .spared (.same rfl rfl .refl rfl rfl)

end Run

/-! ## §3 How far a move can bring a shutdown -/

/-- The shutdown has got what it waited for, and goes on when it is woken. -/
def Closing.Ready : Closing → Prop
  | .stopping [] _ => True
  | .releasing (some _) => True
  | _ => False

/-- One move brings a shutdown from one point to another. -/
inductive Closing.Goes (l : Loader) (c : ClosingId) : Move → Closing → Closing → Prop
  | still {m : Move} (k : Closing) : Goes l c m k k
  | heard {left : List FetchId} {cancelled : Bool} {f : FetchId} (hq : .fetchEnded c f ∈ l.ready) :
      Goes l c .runJob (.stopping left cancelled) (.stopping (left.erase f) cancelled)
  | dropped : Goes l c .runJob (.stopping [] true) (.over .cancelled)
  /-- The registry's own client is closed now; any other client is left alone. -/
  | owner : Goes l c .runJob (.stopping [] false) (.releasing none)
  | guest : Goes l c .runJob (.stopping [] false) (.over .ok)
  | through (r : TaskEnd) : Goes l c .runJob (.releasing (some r)) (.over r)
  | released (problem : Option Fault) :
      Goes l c (.invoke (.clientClosed c problem)) (.releasing none)
        (.releasing (some (problem.elim .ok .fault)))
  | marked (left : List FetchId) (cancelled : Bool) :
      Goes l c (.invoke (.cancelClosing c)) (.stopping left cancelled) (.stopping left true)
  | struck (result : Option TaskEnd) : Goes l c (.invoke (.cancelClosing c)) (.releasing result)
      (.releasing (some .cancelled))
  | warned (cancelled : Bool) :
      Goes l c (.invoke (.cancelClosing c)) (.ending cancelled) (.ending true)

namespace Loader

variable {l l' : Loader} {c c' : ClosingId} {f : FetchId} {k : Closing} {m : Move}

/-! ### Other shutdowns -/

theorem get?_setClosing_self (hk : l.closings.get? c = some k) (k' : Closing) :
    (l.setClosing c k').closings.get? c = some k' :=
  Table.get?_update_self hk _

theorem get?_setClosing_of_ne (hne : c ≠ c') (l : Loader) (k : Closing) :
    (l.setClosing c k).closings.get? c' = l.closings.get? c' := by
  rw [setClosing, Table.get?_update, if_neg hne]

theorem closings_stopFetch (l : Loader) (f : FetchId) : (l.stopFetch f).closings = l.closings := by
  unfold stopFetch
  split
  · rfl
  · rfl
  · rfl
  · rfl

theorem closings_stopAll (fs : List FetchId) (l : Loader) :
    (fs.foldl stopFetch l).closings = l.closings :=
  List.foldlRecOn fs _ (motive := fun l' => l'.closings = l.closings) rfl
    fun l' h f _ => (closings_stopFetch l' f).trans h

theorem get?_releaseClient_of_ne (hne : c ≠ c') (l : Loader) (cancelled : Bool) :
    (l.releaseClient c cancelled).closings.get? c' = l.closings.get? c' := by
  unfold releaseClient
  split
  · dsimp only
    split
    · exact get?_setClosing_of_ne hne ..
    · exact get?_setClosing_of_ne hne ..
  · exact get?_setClosing_of_ne hne ..

theorem get?_closeRegistry_of_ne (hne : c ≠ c') (l : Loader) :
    (l.closeRegistry c).closings.get? c' = l.closings.get? c' := by
  unfold closeRegistry
  split
  · rename_i cancelled _
    unfold stopFetches
    split
    · exact get?_releaseClient_of_ne hne ..
    · exact (get?_setClosing_of_ne hne ..).trans (congrArg (·.get? c') (closings_stopAll ..))
  · rfl

theorem get?_fetchEnded_of_ne (hne : c ≠ c') (l : Loader) (f : FetchId) :
    (l.fetchEnded c f).closings.get? c' = l.closings.get? c' := by
  unfold fetchEnded
  split
  · dsimp only
    split
    · exact get?_setClosing_of_ne hne ..
    · exact get?_setClosing_of_ne hne ..
  · rfl

theorem get?_wakeClosing_of_ne (hne : c ≠ c') (l : Loader) :
    (l.wakeClosing c).closings.get? c' = l.closings.get? c' := by
  unfold wakeClosing
  split
  · exact get?_setClosing_of_ne hne ..
  · exact get?_releaseClient_of_ne hne ..
  · exact get?_setClosing_of_ne hne ..
  · rfl

theorem get?_clientClosed_of_ne (hne : c ≠ c') (l : Loader) (problem : Option Fault) :
    (l.clientClosed c problem).1.closings.get? c' = l.closings.get? c' := by
  unfold clientClosed
  split
  · exact get?_setClosing_of_ne hne ..
  · rfl

theorem get?_cancelClosing_of_ne (hne : c ≠ c') (l : Loader) :
    (l.cancelClosing c).1.closings.get? c' = l.closings.get? c' := by
  unfold cancelClosing
  split
  · exact get?_setClosing_of_ne hne ..
  · exact get?_setClosing_of_ne hne ..
  · exact get?_setClosing_of_ne hne ..
  · exact get?_setClosing_of_ne hne ..
  · rfl

/-! ### The shutdown itself -/

theorem get?_fetchEnded {left : List FetchId} {cancelled : Bool}
    (hk : l.closings.get? c = some (.stopping left cancelled)) (f : FetchId) :
    (l.fetchEnded c f).closings.get? c = some (.stopping (left.erase f) cancelled) := by
  simp only [Loader.fetchEnded, hk]
  split
  · exact get?_setClosing_self hk _
  · exact get?_setClosing_self hk _

theorem goes_fetchEnded (hk : l.closings.get? c = some k) (hq : .fetchEnded c f ∈ l.ready)
    (rest : List Job) : ∃ k', ({ l with ready := rest }.fetchEnded c f).closings.get? c = some k' ∧
      k.Goes l c .runJob k' := by
  cases k with
  | stopping left cancelled =>
    exact ⟨_, get?_fetchEnded (l := { l with ready := rest }) hk f, .heard hq⟩
  | _ => exact ⟨_, by simp only [Loader.fetchEnded, hk], .still _⟩

/-- The client's part of a shutdown: it is over at once if the client is not the registry's own. -/
theorem get?_releaseClient (hk : l.closings.get? c = some k) :
    (l.releaseClient c false).closings.get? c =
      some (if l.registry.ownsClient then .releasing none else .over .ok) := by
  unfold releaseClient
  split
  · exact get?_setClosing_self hk _
  · exact get?_setClosing_self hk _

/-- A shutdown that is woken goes on, if it has got what it waited for. -/
theorem goes_wakeClosing (hk : l.closings.get? c = some k) (rest : List Job) :
    ∃ k', ({ l with ready := rest }.wakeClosing c).closings.get? c = some k' ∧
      k.Goes l c .runJob k' ∧ (k.Ready → k' ≠ k) := by
  cases k with
  | stopping left cancelled =>
    cases left with
    | nil =>
      cases cancelled with
      | true =>
        refine ⟨.over .cancelled, ?_, .dropped, nofun⟩
        simp only [Loader.wakeClosing, hk]
        exact get?_setClosing_self hk _
      | false =>
        refine ⟨_, by simp only [Loader.wakeClosing, hk]; exact get?_releaseClient hk, ?_⟩
        split
        · exact ⟨.owner, nofun⟩
        · exact ⟨.guest, nofun⟩
    | cons f left => exact ⟨_, by simp only [Loader.wakeClosing, hk], .still _, nofun⟩
  | releasing result =>
    cases result with
    | none => exact ⟨_, by simp only [Loader.wakeClosing, hk], .still _, nofun⟩
    | some r =>
      refine ⟨.over r, ?_, .through r, nofun⟩
      simp only [Loader.wakeClosing, hk]
      exact get?_setClosing_self hk _
  | _ => exact ⟨_, by simp only [Loader.wakeClosing, hk], .still _, nofun⟩

theorem goes_clientClosed (hk : l.closings.get? c = some k) (problem : Option Fault) :
    ∃ k', (l.clientClosed c problem).1.closings.get? c = some k' ∧
      k.Goes l c (.invoke (.clientClosed c problem)) k' := by
  cases k with
  | releasing result =>
    cases result with
    | none =>
      refine ⟨_, ?_, .released problem⟩
      simp only [Loader.clientClosed, hk]
      cases problem <;> exact get?_setClosing_self hk _
    | some r => exact ⟨_, by simp only [Loader.clientClosed, hk], .still _⟩
  | _ => exact ⟨_, by simp only [Loader.clientClosed, hk], .still _⟩

theorem goes_cancelClosing (hk : l.closings.get? c = some k) :
    ∃ k', (l.cancelClosing c).1.closings.get? c = some k' ∧
      k.Goes l c (.invoke (.cancelClosing c)) k' := by
  cases k with
  | ending cancelled =>
    exact ⟨_, by simp only [Loader.cancelClosing, hk]; exact get?_setClosing_self hk _,
      .warned cancelled⟩
  | stopping left cancelled =>
    exact ⟨_, by simp only [Loader.cancelClosing, hk]; exact get?_setClosing_self hk _,
      .marked left cancelled⟩
  | releasing result =>
    refine ⟨_, ?_, .struck result⟩
    cases result <;>
    · simp only [Loader.cancelClosing, hk]
      exact get?_setClosing_self hk _
  | _ => exact ⟨_, by simp only [Loader.cancelClosing, hk], .still _⟩

/-- Of a shutdown that has begun, a move leads to one of these points. -/
theorem Stirs.goes (h : Stirs l m l') (hk : l.closings.get? c = some k) :
    ∃ k', l'.closings.get? c = some k' ∧ k.Goes l c m k' := by
  -- A shutdown that begins has a number of its own.
  have older : l.closings.size ≠ c := fun heq => Table.ne_size_of_get? hk heq.symm
  have begun : l.newClosing.1.closings.get? c = some k := Table.get?_add_of_some hk _
  cases h with
  | spared h => exact ⟨k, by rw [h.closings]; exact hk, .still k⟩
  | ran hq h =>
    cases h with
    | aside hj h => exact ⟨k, by rw [h.closings]; exact hk, .still k⟩
    | asked hf => exact ⟨k, hk, .still k⟩
    | ended hj hf h => exact ⟨k, by rw [h.closings]; exact hk, .still k⟩
    | heard c' f =>
      by_cases hc : c' = c
      · subst hc
        exact goes_fetchEnded hk (by rw [hq]; exact List.mem_cons_self ..) _
      · exact ⟨k, (get?_fetchEnded_of_ne hc _ f).trans hk, .still k⟩
    | woken c' =>
      by_cases hc : c' = c
      · subst hc
        obtain ⟨k', hk', goes, -⟩ := goes_wakeClosing hk _
        exact ⟨k', hk', goes⟩
      · exact ⟨k, (get?_wakeClosing_of_ne hc _).trans hk, .still k⟩
  | responded url r =>
    refine ⟨k, ?_, .still k⟩
    unfold respond
    split
    · exact hk
    · exact hk
  | shut h =>
    exact ⟨k, by rw [get?_closeRegistry_of_ne older, h.closings]; exact begun, .still k⟩
  | failed f h => exact ⟨k, by rw [get?_setClosing_of_ne older, h.closings]; exact begun, .still k⟩
  | released c' problem =>
    by_cases hc : c' = c
    · subst hc
      exact goes_clientClosed hk problem
    · exact ⟨k, (get?_clientClosed_of_ne hc l problem).trans hk, .still k⟩
  | cancelled c' =>
    by_cases hc : c' = c
    · subst hc
      exact goes_cancelClosing hk
    · exact ⟨k, (get?_cancelClosing_of_ne hc l).trans hk, .still k⟩

/-! ### What is over and what is queued -/

theorem isOver_congr (hf : l'.fetches = l.fetches) (f : FetchId) : l'.isOver f = l.isOver f := by
  unfold isOver
  rw [hf]

theorem isOver_iff {f : FetchId} :
    l.isOver f = true ↔ ∃ x, l.fetches.get? f = some x ∧ x.stage = .over := by
  simp [isOver, Option.any_eq_true]

/-- Only a fetch that waits for the client is answered. -/
theorem get?_of_oldestAsked? {url : String} (h : l.oldestAsked? url = some f) :
    ∃ handle, l.fetches.get? f = some { handle, stage := .asked } := by
  obtain ⟨⟨⟨handle, stage⟩, g⟩, hfind, hg⟩ := Option.map_eq_some_iff.mp h
  cases hg
  have hasked := List.find?_some hfind
  have hrow := List.mem_zipIdx_iff_getElem?.mp (List.mem_of_find?_eq_some hfind)
  simp only [Bool.and_eq_true, decide_eq_true_eq] at hasked
  obtain ⟨rfl, -⟩ := hasked
  exact ⟨handle, hrow⟩

/-- A fetch moves on that is not over yet. -/
theorem isOver_setStage {g : FetchId} {x : Fetch} (hf : l.fetches.get? f = some x)
    (ho : x.stage ≠ .over) (stage : FetchStage) (hg : l.isOver g = true) :
    (l.setStage f stage).isOver g = true := by
  obtain ⟨y, hy, hs⟩ := isOver_iff.mp hg
  have hne : f ≠ g := by
    rintro rfl
    rw [hf] at hy
    cases hy
    exact ho hs
  exact isOver_iff.mpr ⟨y, by rw [setStage, Table.get?_update, if_neg hne]; exact hy, hs⟩

/-- A fetch comes to its end, and the others are where they were. -/
theorem isOver_endFetch {g : FetchId} {x : Fetch} (hf : l.fetches.get? f = some x) :
    (l.endFetch f).isOver g = true ↔ f = g ∨ l.isOver g = true := by
  rw [isOver_iff, isOver_iff]
  show (∃ y, (l.fetches.update f _).get? g = some y ∧ _) ↔ _
  rw [Table.get?_update]
  by_cases hfg : f = g
  · subst hfg
    simp [hf]
  · simp [hfg]

theorem isOver_closeRegistry (c : ClosingId) (ho : l.isOver f = true) :
    (l.closeRegistry c).isOver f = true := by
  unfold closeRegistry
  split
  · obtain ⟨x, hx, hs⟩ := isOver_iff.mp ho
    refine isOver_iff.mpr ⟨x, ?_, hs⟩
    rw [get?_stopFetches, hx, Option.map_some, Fetch.stop_of_over hs]
  · exact ho

/-- A fetch that is over stays so. -/
theorem Stirs.isOver (h : Stirs l m l') (ho : l.isOver f = true) : l'.isOver f = true := by
  cases h with
  | spared h => rw [h.isOver_iff]; exact ho
  | @ran j rest _ hq h =>
    have popped : { l with ready := rest }.isOver f = true := ho
    cases h with
    | aside hj h => rw [h.isOver_iff]; exact popped
    | asked hf => exact isOver_setStage (l := { l with ready := rest }) hf nofun _ popped
    | ended hj hf h =>
      rw [h.isOver_iff]
      exact (isOver_endFetch hf).mpr (.inr popped)
    | heard c f => rw [isOver_congr (fetches_fetchEnded ..)]; exact popped
    | woken c => rw [isOver_congr (fetches_wakeClosing ..)]; exact popped
  | responded url r =>
    unfold respond
    split
    · rename_i g hg
      obtain ⟨h, hx⟩ := get?_of_oldestAsked? hg
      exact isOver_setStage hx nofun _ ho
    · exact ho
  | shut h =>
    refine isOver_closeRegistry _ ?_
    rw [h.isOver_iff]
    exact ho
  | @failed _ l₁ f h =>
    show l₁.isOver _ = true
    rw [h.isOver_iff]
    exact ho
  | released c problem => rw [isOver_congr (fetches_clientClosed ..)]; exact ho
  | cancelled c => rw [isOver_congr (fetches_cancelClosing ..)]; exact ho

/-- A fetch that was cancelled stays so until it is over. -/
theorem Runs.stopping {j : Job} {rest : List Job} {h : HandleId} (hr : Runs l rest j l')
    (hs : l.fetches.get? f = some { handle := h, stage := .stopping }) :
    l'.fetches.get? f = some { handle := h, stage := .stopping } ∨ l'.isOver f = true := by
  cases hr with
  | aside hj h => exact .inl (h.kept f _ hs)
  | @asked g h hg =>
    refine .inl ?_
    have hne : g ≠ f := by
      rintro rfl
      rw [hg] at hs
      cases hs
    rw [setStage, Table.get?_update, if_neg hne]
    exact hs
  | @ended j g x l' hj hg h =>
    by_cases hgf : g = f
    · refine .inr ?_
      rw [h.isOver_iff]
      exact (isOver_endFetch hg).mpr (.inl hgf)
    · refine .inl (h.kept f _ ?_)
      show (l.fetches.update g _).get? f = _
      rw [Table.get?_update, if_neg hgf]
      exact hs
  | heard c g => exact .inl (by rw [fetches_fetchEnded]; exact hs)
  | woken c => exact .inl (by rw [fetches_wakeClosing]; exact hs)

/-- A job that is run is taken off the queue, and what it queues stands behind the others. -/
theorem Runs.ready {j : Job} {rest : List Job} (h : Runs l rest j l') :
    ∃ jobs, l'.ready = rest ++ jobs := by
  cases h with
  | aside hj h =>
    obtain ⟨jobs, hq, -⟩ := h.queued
    exact ⟨jobs, hq⟩
  | asked hf => exact ⟨[], (List.append_nil rest).symm⟩
  | @ended j f x l' hj hf h =>
    obtain ⟨jobs, hq, -⟩ := h.queued
    exact ⟨.forget f :: endings { l with ready := rest } f ++ jobs, by
      rw [hq]
      exact List.append_assoc ..⟩
  | heard c f =>
    obtain ⟨_, _, _, jobs, heq, -⟩ := Unloads.fetchEnded { l with ready := rest } c f
    exact ⟨jobs, by rw [heq]⟩
  | woken c =>
    obtain ⟨_, _, _, jobs, heq, -⟩ := Unloads.wakeClosing { l with ready := rest } c
    exact ⟨jobs, by rw [heq]⟩

end Loader

end SingleFlight
