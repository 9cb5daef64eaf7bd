/-
SingleFlight.Proofs.Draining — a shutdown waits for its fetches, and then is over.

A shutdown cancels the fetches that the registry keeps, waits until it has heard
that each of them is over, and closes the client. Between these points the event
loop runs, and anything else may be done to the loader. §1 shows that nothing gets
lost meanwhile: whoever waits for something has it announced in the queue. §2
follows one shutdown from where it began: what it has stopped waiting for is over.

* `Loader.Attended` — the invariant of §1; `Attended.stirs` — every move keeps it.
* `Loader.Needed` — the jobs that somebody waits for.
* `Loader.Covers` — the fetches that were there when a shutdown began; `Covers.goes`.
* `Closing.Calm` — a shutdown that nobody has disturbed.
-/
import SingleFlight.Proofs.Stirring

namespace SingleFlight

namespace Loader

/-! ## §1 What is waited for comes about -/

/-- A fetch that needs its turn to get on has it in the queue. -/
def Posted (l : Loader) (f : FetchId) : FetchStage → Prop
  | .created => .ask f ∈ l.ready
  | .answered _ => .answer f ∈ l.ready
  | .stopping => .ask f ∈ l.ready ∨ .answer f ∈ l.ready
  | _ => True

/-- The fetch was cancelled; or it is over, and the shutdown is about to hear of it. -/
def Ending (l : Loader) (c : ClosingId) (f : FetchId) : Prop :=
  (∃ h, l.fetches.get? f = some { handle := h, stage := .stopping }) ∨
    l.isOver f = true ∧ .fetchEnded c f ∈ l.ready

/-- If the client is the registry's own, it has been closed. -/
def Freed (l : Loader) : Prop :=
  ∀ client, l.registry.client? = some client → client.owned = true → client.closed = true

/-- A shutdown has got what it needed, and gets what it waits for. -/
def Provided (l : Loader) (c : ClosingId) : Closing → Prop
  | .ending _ => True
  | .stopping left _ =>
    left.Nodup ∧ (left = [] → .wakeClosing c ∈ l.ready) ∧ ∀ f ∈ left, l.Ending c f
  | .releasing result => l.Freed ∧ (result ≠ none → .wakeClosing c ∈ l.ready)
  | .over r => r = .ok → l.Freed

/-- A job that somebody waits for. -/
def Needed (l : Loader) : Job → Prop
  | .ask f => ∃ x, l.fetches.get? f = some x ∧ (x.stage = .created ∨ x.stage = .stopping)
  | .answer f => ∃ x, l.fetches.get? f = some x ∧
      ((∃ r, x.stage = .answered r) ∨ x.stage = .stopping)
  | .fetchEnded c f => ∃ left b, l.closings.get? c = some (.stopping left b) ∧ f ∈ left
  | .wakeClosing c => (∃ b, l.closings.get? c = some (.stopping [] b)) ∨
      ∃ r, l.closings.get? c = some (.releasing (some r))
  | _ => False

/-- Fetches and shutdowns have in the queue what they wait for. -/
structure Attended (l : Loader) : Prop where
  placed : ∀ f x, l.fetches.get? f = some x → ∃ handle, l.handles.get? x.handle = some handle
  posted : ∀ f x, l.fetches.get? f = some x → l.Posted f x.stage
  told : ∀ c f, .fetchEnded c f ∈ l.ready → l.isOver f = true
  provided : ∀ c k, l.closings.get? c = some k → l.Provided c k

variable {l l' l₁ : Loader} {m : Move} {c : ClosingId} {k : Closing} {f : FetchId} {j : Job}
  {rest : List Job}

theorem Posted.mono {stage : FetchStage} (h : l.Posted f stage)
    (hj : ∀ j, j = .ask f ∨ j = .answer f → j ∈ l.ready → j ∈ l'.ready) : l'.Posted f stage := by
  cases stage with
  | created => exact hj _ (.inl rfl) h
  | answered r => exact hj _ (.inr rfl) h
  | stopping => exact h.imp (hj _ (.inl rfl)) (hj _ (.inr rfl))
  | _ => trivial

theorem Provided.mono (h : l.Provided c k) (ending : ∀ f, l.Ending c f → l'.Ending c f)
    (wake : .wakeClosing c ∈ l.ready → .wakeClosing c ∈ l'.ready)
    (released : l.Freed → l'.Freed) : l'.Provided c k := by
  cases k with
  | ending b => trivial
  | stopping left b => exact ⟨h.1, fun hl => wake (h.2.1 hl), fun f hf => ending f (h.2.2 f hf)⟩
  | releasing result => exact ⟨released h.1, fun hr => wake (h.2 hr)⟩
  | _ => exact fun hr => released (h hr)

/-- A client that is closed, or not the registry's own, needs no more. -/
theorem freed_shut (l : Loader) : Freed { l with registry := l.registry.shut } := by
  intro client hc howned
  have hc' : l.registry.shut.client? = some client := hc
  rw [Registry.client?_shut] at hc'
  obtain ⟨client₀, -, rfl⟩ := Option.map_eq_some_iff.mp hc'
  exact Bool.or_eq_true_iff.mpr (.inr howned)

theorem freed_of_not_owned (h : l.registry.ownsClient = false) : l.Freed := by
  intro client hc howned
  cases hr : l.registry with
  | document hs n => simp [hr, Registry.client?] at hc
  | keyed entries client' =>
    simp only [hr, Registry.client?, Option.some.injEq] at hc
    subst hc
    simp [hr, Registry.ownsClient, howned] at h

namespace Attended

/-! ### The pieces -/

theorem untouched (i : l.Attended) (h : Untouched l l') : l'.Attended where
  placed := by
    intro f x hx
    rcases h.begun f x hx with hx | ⟨-, -, -, handle, hh⟩
    · obtain ⟨handle, hh⟩ := i.placed f x hx
      exact h.handles _ handle hh
    · exact ⟨handle, hh⟩
  posted := by
    intro f x hx
    rcases h.begun f x hx with hx | ⟨-, hs, hq, -⟩
    · exact (i.posted f x hx).mono fun j _ hj => h.mem_ready hj
    · rw [hs]
      exact hq
  told := by
    intro c f hj
    rw [h.isOver_iff]
    exact i.told c f (h.mem_of_ofFetches trivial hj)
  provided := by
    intro c k hk
    rw [h.closings] at hk
    refine (i.provided c k hk).mono (fun f hf => ?_) h.mem_ready fun hr => ?_
    · rcases hf with ⟨handle, hx⟩ | ⟨ho, hj⟩
      · exact .inl ⟨handle, h.kept f _ hx⟩
      · exact .inr ⟨by rw [h.isOver_iff]; exact ho, h.mem_ready hj⟩
    · unfold Freed
      rw [h.client]
      exact hr

/-- Jobs are queued; one that tells of the end of a fetch tells the truth. -/
theorem queue (i : l.Attended) (jobs : List Job)
    (hj : ∀ c f, .fetchEnded c f ∈ jobs → l.isOver f = true) :
    Attended { l with ready := l.ready ++ jobs } where
  placed := i.placed
  posted := fun f x hx => (i.posted f x hx).mono fun _ _ => List.mem_append_left jobs
  told := fun c f hm => (List.mem_append.mp hm).elim (i.told c f) (hj c f)
  provided := by
    intro c k hk
    refine (i.provided c k hk).mono (fun f hf => ?_) (List.mem_append_left jobs) id
    exact hf.imp_right fun ⟨ho, hm⟩ => ⟨ho, List.mem_append_left jobs hm⟩

/-- A job is taken off the queue that nobody waits for. -/
theorem pop (i : l.Attended) (hq : l.ready = j :: rest) (hn : ¬l.Needed j) :
    Attended { l with ready := rest } := by
  have left : ∀ j', j' ∈ l.ready → l.Needed j' → j' ∈ rest := by
    intro j' hm hneed
    rw [hq] at hm
    rcases List.mem_cons.mp hm with rfl | hm
    · exact absurd hneed hn
    · exact hm
  refine ⟨i.placed, fun f x hx => ?_, fun c f hm => ?_, fun c k hk => ?_⟩
  · have posted := i.posted f x hx
    obtain ⟨h, stage⟩ := x
    cases stage with
    | created => exact left _ posted ⟨_, hx, .inl rfl⟩
    | answered r => exact left _ posted ⟨_, hx, .inl ⟨r, rfl⟩⟩
    | stopping =>
      exact posted.imp (fun hm => left _ hm ⟨_, hx, .inr rfl⟩)
        fun hm => left _ hm ⟨_, hx, .inr rfl⟩
    | _ => trivial
  · exact i.told c f (by rw [hq]; exact List.mem_cons_of_mem j hm)
  · have provided := i.provided c k hk
    cases k with
    | ending b => trivial
    | stopping fs b =>
      refine ⟨provided.1, fun hl => left _ (provided.2.1 hl) (.inl ⟨b, by rw [← hl]; exact hk⟩),
        fun f hf => ?_⟩
      exact (provided.2.2 f hf).imp_right fun ⟨ho, hm⟩ => ⟨ho, left _ hm ⟨fs, b, hk, hf⟩⟩
    | releasing result =>
      refine ⟨provided.1, fun hr => left _ (provided.2 hr) ?_⟩
      obtain ⟨r, rfl⟩ := Option.ne_none_iff_exists'.mp hr
      exact .inr ⟨r, hk⟩
    | _ => exact provided

/-- A fetch that is under way goes on to another stage, and has its turn there. -/
theorem stage (i : l.Attended) {x : Fetch} (hf : l.fetches.get? f = some x)
    (hs : x.stage ≠ .stopping) (ho : x.stage ≠ .over) (stage : FetchStage)
    (hp : l.Posted f stage) : (l.setStage f stage).Attended := by
  have row : ∀ g y, (l.setStage f stage).fetches.get? g = some y →
      f = g ∧ y = { x with stage } ∨ f ≠ g ∧ l.fetches.get? g = some y := by
    intro g y hy
    rw [setStage, Table.get?_update] at hy
    split at hy
    · rename_i hg
      subst hg
      rw [hf] at hy
      exact .inl ⟨rfl, (Option.some.inj hy).symm⟩
    · rename_i hg
      exact .inr ⟨hg, hy⟩
  refine ⟨fun g y hy => ?_, fun g y hy => ?_, fun c g hm => ?_, fun c k hk => ?_⟩
  · rcases row g y hy with ⟨rfl, rfl⟩ | ⟨-, hy⟩
    · exact i.placed f x hf
    · exact i.placed g y hy
  · rcases row g y hy with ⟨rfl, rfl⟩ | ⟨-, hy⟩
    · exact hp
    · exact i.posted g y hy
  · exact isOver_setStage hf ho stage (i.told c g hm)
  · refine (i.provided c k hk).mono (fun g hg => ?_) id id
    rcases hg with ⟨h, hg⟩ | ⟨hg, hm⟩
    · have hne : f ≠ g := by
        rintro rfl
        rw [hf] at hg
        cases hg
        exact hs rfl
      exact .inl ⟨h, by rw [setStage, Table.get?_update, if_neg hne]; exact hg⟩
    · exact .inr ⟨isOver_setStage hf ho stage hg, hm⟩

theorem setClosing (i : l.Attended) (hk : l.Provided c k) : (l.setClosing c k).Attended where
  placed := i.placed
  posted := i.posted
  told := i.told
  provided := by
    intro c' k' hk'
    rw [Loader.setClosing, Table.get?_update] at hk'
    split at hk'
    · rename_i hc
      obtain ⟨_, -, rfl⟩ := Option.map_eq_some_iff.mp hk'
      subst hc
      exact hk.mono (fun _ => id) id id
    · exact (i.provided c' k' hk').mono (fun _ => id) id id

theorem shut (i : l.Attended) : Attended { l with registry := l.registry.shut } where
  placed := i.placed
  posted := i.posted
  told := i.told
  provided := fun c k hk => (i.provided c k hk).mono (fun _ => id) id fun _ => freed_shut l

theorem newClosing (i : l.Attended) : l.newClosing.1.Attended where
  placed := i.placed
  posted := i.posted
  told := i.told
  provided := by
    intro c k hk
    change (l.closings.add (.ending false)).get? c = some k at hk
    rw [Table.get?_add] at hk
    split at hk
    · cases hk
      trivial
    · exact (i.provided c k hk).mono (fun _ => id) id id

/-! ### Fetches -/

theorem mem_endings {j : Job} : j ∈ l.endings f ↔
    ∃ c k, l.closings.get? c = some k ∧ k.awaits f = true ∧ j = .fetchEnded c f := by
  unfold endings
  rw [List.mem_filterMap]
  constructor
  · rintro ⟨⟨k, c⟩, hm, hj⟩
    obtain ⟨hawaits, heq⟩ := Option.ite_none_right_eq_some.mp hj
    cases heq
    exact ⟨c, k, List.mem_zipIdx_iff_getElem?.mp hm, hawaits, rfl⟩
  · rintro ⟨c, k, hk, hawaits, rfl⟩
    exact ⟨(k, c), List.mem_zipIdx_iff_getElem?.mpr hk, if_pos hawaits⟩

/-- A fetch comes to its end, and whoever waits for it will hear of it. -/
theorem endFetch (i : l.Attended) {x : Fetch} (hf : l.fetches.get? f = some x) :
    (l.endFetch f).Attended := by
  have row : ∀ g y, (l.endFetch f).fetches.get? g = some y →
      f = g ∧ y = { x with stage := .over } ∨ l.fetches.get? g = some y := by
    intro g y hy
    change (l.fetches.update f ({ · with stage := .over })).get? g = some y at hy
    rw [Table.get?_update] at hy
    split at hy
    · rename_i hg
      subst hg
      rw [hf] at hy
      exact .inl ⟨rfl, (Option.some.inj hy).symm⟩
    · exact .inr hy
  have queued : ∀ j ∈ l.ready, j ∈ (l.endFetch f).ready := fun j => List.mem_append_left _
  refine ⟨fun g y hy => ?_, fun g y hy => ?_, fun c g hm => ?_, fun c k hk => ?_⟩
  · rcases row g y hy with ⟨rfl, rfl⟩ | hy
    · exact i.placed f x hf
    · exact i.placed g y hy
  · rcases row g y hy with ⟨rfl, rfl⟩ | hy
    · trivial
    · exact (i.posted g y hy).mono fun j _ => queued j
  · refine (isOver_endFetch hf).mpr ?_
    rcases List.mem_append.mp hm with hm | hm
    · exact .inr (i.told c g hm)
    · rcases List.mem_cons.mp hm with hm | hm
      · cases hm
      · obtain ⟨_, _, -, -, heq⟩ := mem_endings.mp hm
        cases heq
        exact .inl rfl
  · have provided := i.provided c k hk
    have released : l.Freed → (l.endFetch f).Freed := id
    cases k with
    | stopping left b =>
      refine ⟨provided.1, fun hl => queued _ (provided.2.1 hl), fun g hg => ?_⟩
      by_cases hfg : f = g
      · subst hfg
        refine .inr ⟨(isOver_endFetch hf).mpr (.inl rfl), List.mem_append_right _ ?_⟩
        exact List.mem_cons_of_mem _ (mem_endings.mpr
          ⟨c, _, hk, by simpa [Closing.awaits] using hg, rfl⟩)
      · rcases provided.2.2 g hg with ⟨h, hg⟩ | ⟨ho, hm⟩
        · refine .inl ⟨h, ?_⟩
          change (l.fetches.update f _).get? g = _
          rw [Table.get?_update, if_neg hfg]
          exact hg
        · exact .inr ⟨(isOver_endFetch hf).mpr (.inr ho), queued _ hm⟩
    | releasing result => exact ⟨released provided.1, fun hr => queued _ (provided.2 hr)⟩
    | _ => exact provided

theorem respond (i : l.Attended) (url : String) (r : Reply) : (l.respond url r).1.Attended := by
  unfold Loader.respond
  split
  · rename_i f hf
    obtain ⟨h, hx⟩ := get?_of_oldestAsked? hf
    have queued : Attended { l with ready := l.ready ++ [.answer f] } := i.queue _ (by simp)
    exact queued.stage hx nofun nofun (.answered r)
      (List.mem_append_right _ (List.mem_singleton.mpr rfl))
  · exact i

/-- A fetch is cancelled, and has its turn to come to its end. -/
theorem stopFetch (i : l.Attended) (f : FetchId) : (l.stopFetch f).Attended := by
  unfold Loader.stopFetch
  split
  · rename_i h hf
    exact i.stage hf nofun nofun .stopping (.inl (i.posted f _ hf))
  · rename_i h hf
    have queued : Attended { l with ready := l.ready ++ [.answer f] } := i.queue _ (by simp)
    exact queued.stage hf nofun nofun .stopping
      (.inr (List.mem_append_right _ (List.mem_singleton.mpr rfl)))
  · rename_i h r hf
    exact i.stage hf nofun nofun .stopping (.inr (i.posted f _ hf))
  · exact i

/-! ### Shutdowns -/

/-- The client's part of a shutdown. -/
theorem releaseClient (i : l.Attended) (c : ClosingId) (cancelled : Bool) :
    (l.releaseClient c cancelled).Attended := by
  unfold Loader.releaseClient
  cases ho : l.registry.ownsClient with
  | true =>
    have released := freed_shut l
    cases cancelled with
    | true =>
      have queued := i.shut.queue [.wakeClosing c] (by simp)
      exact queued.setClosing (k := .releasing (some .cancelled))
        ⟨released, fun _ => List.mem_append_right _ (List.mem_singleton.mpr rfl)⟩
    | false => exact i.shut.setClosing (k := .releasing none) ⟨released, fun hr => absurd rfl hr⟩
  | false => exact i.setClosing fun _ => freed_of_not_owned ho

/-- The fetches that are kept are cancelled. -/
theorem get?_stopKept {x : Fetch} (hkept : f ∈ l.keptFetches) (hx : l.fetches.get? f = some x) :
    (l.keptFetches.foldl Loader.stopFetch l).fetches.get? f = some x.stop := by
  rw [get?_stopAll, if_pos hkept, hx, Option.map_some]

theorem isOver_stopKept (hkept : f ∈ l.keptFetches) (ho : l.isOver f = true) :
    (l.keptFetches.foldl Loader.stopFetch l).isOver f = true := by
  obtain ⟨x, hx, hs⟩ := isOver_iff.mp ho
  exact isOver_iff.mpr ⟨x, by rw [get?_stopKept hkept hx, Fetch.stop_of_over hs], hs⟩

/-- Whatever a shutdown waits for has been cancelled, or is over and announced. -/
theorem stopFetches (i : l.Attended) (c : ClosingId) (cancelled : Bool) :
    (l.stopFetches c cancelled).Attended := by
  unfold Loader.stopFetches
  split
  · exact i.releaseClient c cancelled
  · rename_i _ hsome
    have stopped : (l.keptFetches.foldl Loader.stopFetch l).Attended :=
      List.foldlRecOn _ _ i fun l' h f _ => h.stopFetch f
    have queued := stopped.queue ((l.keptFetches.filter l.isOver).map (.fetchEnded c))
      fun c' f hm => by
        obtain ⟨g, hg, heq⟩ := List.mem_map.mp hm
        cases heq
        exact isOver_stopKept (List.mem_filter.mp hg).1 (List.mem_filter.mp hg).2
    refine queued.setClosing (k := .stopping l.keptFetches cancelled)
      ⟨List.nodup_range.filter _, fun hnil => absurd hnil hsome, fun f hf => ?_⟩
    cases ho : l.isOver f with
    | true =>
      exact .inr ⟨isOver_stopKept hf ho, List.mem_append_right _
        (List.mem_map_of_mem (List.mem_filter.mpr ⟨hf, ho⟩))⟩
    | false =>
      have hlt : f < l.fetches.size := List.mem_range.mp (List.mem_filter.mp hf).1
      obtain ⟨x, hx⟩ := Table.lt_size_iff.mp hlt
      have running : x.stage ≠ .over := by simpa [isOver, hx] using ho
      exact .inl ⟨x.handle, (get?_stopKept hf hx).trans
        (congrArg some (Fetch.stop_of_ne_over running))⟩

theorem closeRegistry (i : l.Attended) (c : ClosingId) : (l.closeRegistry c).Attended := by
  unfold Loader.closeRegistry
  split
  · exact i.stopFetches c _
  · exact i

theorem clientClosed (i : l.Attended) (c : ClosingId) (problem : Option Fault) :
    (l.clientClosed c problem).1.Attended := by
  unfold Loader.clientClosed
  split
  · rename_i hk
    have queued : Attended { l with ready := l.ready ++ [.wakeClosing c] } := i.queue _ (by simp)
    exact queued.setClosing (k := .releasing (some _)) ⟨(i.provided c _ hk).1,
      fun _ => List.mem_append_right _ (List.mem_singleton.mpr rfl)⟩
  · exact i

theorem cancelClosing (i : l.Attended) (c : ClosingId) : (l.cancelClosing c).1.Attended := by
  unfold Loader.cancelClosing
  split
  · exact i.setClosing (k := .ending true) trivial
  · rename_i left cancelled hk
    obtain ⟨nodup, wake, ending⟩ := i.provided c _ hk
    exact i.setClosing (k := .stopping left true) ⟨nodup, wake, ending⟩
  · rename_i hk
    have queued : Attended { l with ready := l.ready ++ [.wakeClosing c] } := i.queue _ (by simp)
    exact queued.setClosing (k := .releasing (some .cancelled)) ⟨(i.provided c _ hk).1,
      fun _ => List.mem_append_right _ (List.mem_singleton.mpr rfl)⟩
  · rename_i r hk
    exact i.setClosing (k := .releasing (some .cancelled))
      ⟨(i.provided c _ hk).1, fun _ => (i.provided c _ hk).2 nofun⟩
  · exact i

/-! ### Jobs -/

/-- Nobody waits for a job that has nothing to do. -/
theorem not_needed (i : l.Attended) (h : l.Idles j) : ¬l.Needed j := by
  intro hneed
  cases j with
  | ask f =>
    obtain ⟨x, hx, hs | hs⟩ := hneed
    · exact (h x hx).1 hs
    · exact (h x hx).2 hs
  | answer f =>
    obtain ⟨x, hx, ⟨r, hs⟩ | hs⟩ := hneed
    · obtain ⟨handle, hh⟩ := i.placed f x hx
      rw [(h x hx).2 r hs] at hh
      cases hh
    · exact (h x hx).1 hs
  | fetchEnded c f => exact h
  | wakeClosing c => exact h
  | _ => exact hneed

/-- A shutdown hears of the end of a fetch, and waits for it no more. -/
theorem fetchEnded (i : l.Attended) (hq : l.ready = .fetchEnded c f :: rest) :
    ({ l with ready := rest }.fetchEnded c f).Attended := by
  unfold Loader.fetchEnded
  split
  · rename_i left cancelled hk
    obtain ⟨nodup, -, ending⟩ := i.provided c _ hk
    have heard : ∀ jobs : List Job, (left.erase f = [] → .wakeClosing c ∈ jobs) →
        (∀ c f, .fetchEnded c f ∉ jobs) →
        Attended ({ l with ready := rest ++ jobs }.setClosing c
          (.stopping (left.erase f) cancelled)) := by
      intro jobs hwake hjobs
      have queued := i.queue jobs fun c f hm => absurd hm (hjobs c f)
      have erased := queued.setClosing (c := c) (k := .stopping (left.erase f) cancelled)
        ⟨nodup.erase f, fun hl => List.mem_append_right _ (hwake hl), fun g hg =>
          (ending g (List.mem_of_mem_erase hg)).imp_right fun ⟨ho, hm⟩ =>
            ⟨ho, List.mem_append_left jobs hm⟩⟩
      have hready : l.ready ++ jobs = .fetchEnded c f :: (rest ++ jobs) := by rw [hq]; rfl
      refine erased.pop hready ?_
      rintro ⟨left', b, hk', hf⟩
      have row : (Loader.setClosing l c (.stopping (left.erase f) cancelled)).closings.get? c =
          some (.stopping left' b) := hk'
      have moved := get?_setClosing_self (l := l) hk (.stopping (left.erase f) cancelled)
      cases row.symm.trans moved
      exact nodup.not_mem_erase hf
    dsimp only
    split
    · exact heard [.wakeClosing c] (fun _ => List.mem_singleton.mpr rfl) (by simp)
    · rename_i hleft
      have quiet := heard [] (fun hl => absurd (List.isEmpty_iff.mpr hl) hleft) (by simp)
      rw [List.append_nil] at quiet
      exact quiet
  · rename_i hk
    exact i.pop hq fun ⟨left, b, hk', _⟩ => hk left b hk'

/-- A shutdown goes on that has got what it waited for. -/
theorem wakeClosing (i : l.Attended) (hq : l.ready = .wakeClosing c :: rest) :
    ({ l with ready := rest }.wakeClosing c).Attended := by
  -- Once it has gone on, it waits for the next thing, if for anything.
  have served : ∀ l₁ : Loader, l₁.Attended → l₁.ready = l.ready →
      l₁.closings.get? c = some (.releasing none) ∨ (∃ r, l₁.closings.get? c = some (.over r)) →
      Attended { l₁ with ready := rest } := by
    intro l₁ i₁ hready hk
    refine i₁.pop (hready.trans hq) ?_
    rintro (⟨b, hk'⟩ | ⟨r, hk'⟩) <;> rcases hk with hk | ⟨r, hk⟩ <;>
    · rw [hk] at hk'
      cases hk'
  unfold Loader.wakeClosing
  split
  · rename_i hk
    exact served _ (i.setClosing (k := .over .cancelled) nofun) rfl
      (.inr ⟨_, get?_setClosing_self hk _⟩)
  · rename_i hk
    cases ho : l.registry.ownsClient with
    | true =>
      have gone := served _ (i.shut.setClosing (c := c) (k := .releasing none)
        ⟨freed_shut l, fun hr => absurd rfl hr⟩) rfl
        (.inl (get?_setClosing_self (l := { l with registry := l.registry.shut }) hk _))
      simp only [Loader.releaseClient, ho, if_true]
      exact gone
    | false =>
      have gone := served _ (i.setClosing (c := c) (k := .over .ok)
        fun _ => freed_of_not_owned ho) rfl (.inr ⟨_, get?_setClosing_self hk _⟩)
      simp only [Loader.releaseClient, ho]
      exact gone
  · rename_i r hk
    exact served _ (i.setClosing (k := .over r) fun _ => (i.provided c _ hk).1) rfl
      (.inr ⟨_, get?_setClosing_self hk _⟩)
  · rename_i dropped through released
    refine i.pop hq ?_
    rintro (⟨b, hk⟩ | ⟨r, hk⟩)
    · cases b with
      | true => exact dropped hk
      | false => exact through hk
    · exact released r hk

theorem runs (i : l.Attended) (hq : l.ready = j :: rest) (h : Runs l rest j l') : l'.Attended := by
  cases h with
  | aside hj h => exact (i.pop hq (i.not_needed hj)).untouched h
  | @asked f h hf =>
    refine (i.stage hf nofun nofun .asked trivial).pop hq ?_
    have row := Table.get?_update_self hf ({ · with stage := .asked })
    rintro ⟨x, hx, hs⟩
    cases row.symm.trans hx
    simp at hs
  | @ended j f x l' hj hf h =>
    have row := Table.get?_update_self hf ({ · with stage := .over })
    have hready : (l.endFetch f).ready = j :: (rest ++ .forget f :: l.endings f) :=
      congrArg (· ++ .forget f :: l.endings f) hq
    refine ((i.endFetch hf).pop hready ?_).untouched h
    rcases hj with rfl | rfl <;>
    · rintro ⟨y, hy, hs⟩
      cases row.symm.trans hy
      simp at hs
  | heard c f => exact i.fetchEnded hq
  | woken c => exact i.wakeClosing hq

/-- Every move keeps the invariant. -/
theorem stirs (i : l.Attended) (h : Stirs l m l') : l'.Attended := by
  cases h with
  | spared h => exact i.untouched h
  | ran hq h => exact i.runs hq h
  | responded url r => exact i.respond url r
  | shut h => exact (i.newClosing.untouched h).closeRegistry _
  | failed f h => exact (i.newClosing.untouched h).setClosing (k := .over (.fault f)) nofun
  | released c problem => exact i.clientClosed c problem
  | cancelled c => exact i.cancelClosing c

end Attended

/-! ## §2 One shutdown -/

/-- Of the first `n` fetches, those that are not over are the ones that the shutdown waits for. -/
def Covers (l : Loader) (n : Nat) : Closing → Prop
  | .ending _ => False
  | .stopping left _ => ∀ f, f < n → l.isOver f = true ∨ f ∈ left
  | _ => ∀ f, f < n → l.isOver f = true

theorem Covers.mono {n : Nat} (h : l.Covers n k)
    (ho : ∀ f, l.isOver f = true → l'.isOver f = true) : l'.Covers n k := by
  cases k with
  | ending b => exact h
  | stopping left b => exact fun f hf => (h f hf).imp_left (ho f)
  | _ => exact fun f hf => ho f (h f hf)

/-- What a shutdown does not wait for any more is over. -/
theorem Covers.goes {n : Nat} {k' : Closing} (h : l.Covers n k) (i : l.Attended)
    (g : k.Goes l c m k') : l.Covers n k' := by
  cases g with
  | still => exact h
  | heard hq =>
    intro f hf
    rcases h f hf with ho | hm
    · exact .inl ho
    · rename_i left b g
      by_cases hfg : f = g
      · subst hfg
        exact .inl (i.told c f hq)
      · exact .inr ((List.mem_erase_of_ne hfg).mpr hm)
  | dropped => exact fun f hf => (h f hf).resolve_right List.not_mem_nil
  | owner => exact fun f hf => (h f hf).resolve_right List.not_mem_nil
  | guest => exact fun f hf => (h f hf).resolve_right List.not_mem_nil
  | warned => exact h
  | _ => exact h

end Loader

/-- Nobody has cancelled the shutdown, and the client has not failed it. -/
def Closing.Calm : Closing → Prop
  | .ending cancelled => cancelled = false
  | .stopping _ cancelled => cancelled = false
  | .releasing result => result = none ∨ result = some .ok
  | .over r => r = .ok

/-- The move cancels the shutdown, or its client fails. -/
def Move.Disturbs (c : ClosingId) : Move → Prop
  | .invoke (.cancelClosing c') => c' = c
  | .invoke (.clientClosed c' problem) => c' = c ∧ problem.isSome = true
  | _ => False

theorem Closing.Calm.goes {l : Loader} {c : ClosingId} {m : Move} {k k' : Closing} (h : k.Calm)
    (g : k.Goes l c m k') (hm : ¬m.Disturbs c) : k'.Calm := by
  cases g with
  | still => exact h
  | heard => exact h
  | dropped => cases h
  | owner => exact .inl rfl
  | guest => exact rfl
  | through r =>
    rcases h with h | h
    · cases h
    · exact Option.some.inj h
  | released problem =>
    cases problem with
    | none => exact .inr rfl
    | some f => exact absurd ⟨rfl, rfl⟩ hm
  | _ => exact absurd rfl hm

end SingleFlight
