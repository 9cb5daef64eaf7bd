/-
SingleFlight.Proofs.Conserved — what the counters of a whole loader add up to.

`SingleFlight.Proofs.Balance` says what the pieces of work do to the books. Here
the books are kept through whole uses of a loader. A history has two lists that
no loader keeps: the requests that reached the cache, and the loads that ended,
each with the type of the signal that ended it. Neither is read off a counter.
The requests follow from the moves; a load has ended by a move if it had its
outcome after the move and not before.

* `Run.requests`, `Run.requested` — the requests of a move and of a history.
* `Run.endings`, `Run.ends` — the loads ended by a move and by a history.
* `Balanced.invoke`, `Balanced.runJob`, `Run.balanced_step` — the books, move by move;
  `Balanced.turn` begins the next page.
* `Run.Conserved`, `Run.counters_conserved` — the balance in all uses.
-/
import SingleFlight.Proofs.Balance

namespace SingleFlight

/-! ## §1 Requests and ends -/

/-- The type of the signals by which an operation ends loads, if it ends any. -/
def Operation.endType? : Operation → Option String
  | .request _ => some "load"
  | .report _ e => some e.type
  | .settle _ e => some e.type
  | .notify _ e => some e.type
  | .complete _ type => some type
  | .dispatch _ type => some type
  | .closeLoads => some "abort"
  | .close => some "abort"
  | _ => none

namespace Loader

/-- The type of the signals by which a job ends loads, if it ends any. -/
def jobEndType? (l : Loader) : Job → Option String
  | .report _ e => some e.type
  | .startTask _ => some "load"
  | .ask f =>
    match l.fetches.get? f with
    | some { handle := h, stage := .created } => (l.promptFor? h).map (·.signal)
    | _ => none
  | .answer f =>
    match l.fetches.get? f with
    | some { stage := .answered reply, .. } => some reply.signal
    | _ => none
  | _ => none

/-- An answer that the client gives at once signals as it would later. -/
theorem jobEndType?_ask {l : Loader} {f : FetchId} {h : HandleId} {reply : Reply}
    (hf : l.fetches.get? f = some { handle := h }) (hp : l.promptFor? h = some reply) :
    (l.setStage f (.answered reply)).jobEndType? (.answer f) = l.jobEndType? (.ask f) := by
  have row : (l.setStage f (.answered reply)).fetches.get? f =
      some { handle := h, stage := .answered reply } := Table.get?_update_self hf _
  simp only [jobEndType?, hf, row, hp, Option.map_some]

/-- The requests by which an operation reaches the cache. -/
def requestsOf (l : Loader) : Operation → List (Loader × ChunkId)
  | .request chunk => reached [chunk] l
  | _ => []

/-- The requests by which a job reaches the cache. -/
def requestsOfJob (l : Loader) : Job → List (Loader × ChunkId)
  | .startTask t =>
    match l.tasks.get? t with
    | some (.created chunks false) => reached chunks l
    | _ => []
  | _ => []

/-- The load has its outcome. -/
def hasEnded (l : Loader) (a : AttemptId) : Bool :=
  (l.attempts.get? a).any (·.settled)

end Loader

namespace Run

/-- The type of the signals by which a move ends loads, if it ends any. -/
def endType? (r : Run) : Move → Option String
  | .invoke op => op.endType?
  | .runJob => r.loader.nextJob?.bind fun (j, l) => l.jobEndType? j
  | .fire _ => some "timeout"
  | _ => none

/-- The requests by which a move reaches the cache, each with the loader in which it is made. -/
def requests (r : Run) : Move → List (Loader × ChunkId)
  | .invoke op => r.loader.requestsOf op
  | .runJob =>
    match r.idle, r.loader.nextJob? with
    | true, some (j, l) => l.requestsOfJob j
    | _, _ => []
  | _ => []

/-- The loads that have their outcome after a move, and had none before. -/
def settledBy (r : Run) (m : Move) : List AttemptId :=
  (List.range (r.step m).loader.attempts.size).filter fun a =>
    (r.step m).loader.hasEnded a && !r.loader.hasEnded a

/-- The loads that a move ends, each with the type of the signal. -/
def endings (r : Run) (m : Move) : List (AttemptId × String) :=
  match r.endType? m with
  | none => []
  | some type => (r.settledBy m).map (·, type)

/-- The requests by which a history reached the cache. -/
def requested (r : Run) : List Move → List (Loader × ChunkId)
  | [] => []
  | m :: ms => r.requests m ++ (r.step m).requested ms

/-- The loads that a history ended, each with the type of the signal. -/
def ends (r : Run) : List Move → List (AttemptId × String)
  | [] => []
  | m :: ms => r.endings m ++ (r.step m).ends ms

theorem requested_concat (r : Run) (ms : List Move) (m : Move) :
    r.requested (ms ++ [m]) = r.requested ms ++ (r.steps ms).requests m := by
  induction ms generalizing r with
  | nil => simp [requested, steps]
  | cons m' ms ih =>
    rw [List.cons_append, requested, ih, steps_cons, requested, List.append_assoc]

theorem ends_concat (r : Run) (ms : List Move) (m : Move) :
    r.ends (ms ++ [m]) = r.ends ms ++ (r.steps ms).endings m := by
  induction ms generalizing r with
  | nil => simp [ends, steps]
  | cons m' ms ih =>
    rw [List.cons_append, ends, ih, steps_cons, ends, List.append_assoc]

end Run

/-! ## §2 Stacks of work -/

/-- The work ends loads by signals of the given type only, and makes no requests. -/
def Frame.EndsBy (type : Option String) : Frame → Prop
  | .signal _ e => type = some e.type
  | .abort _ => type = some "abort"
  | .start _ => False
  | .consult _ e => type = some e.type
  | .collect _ _ _ => False
  | _ => True

namespace Loader

variable {p : Page} {l l' : Loader} {requests loadless : Nat}

theorem reached_single (l : Loader) (chunk : ChunkId) :
    reached [chunk] l = if l.closed then [] else [(l, chunk)] := by
  unfold reached
  split
  · rfl
  · split
    · rfl
    · rfl
    · split <;> rfl

namespace Balanced

theorem consult (b : Balanced p l requests loadless) (chunk : ChunkId) {e : LoadEvent}
    (he : p.type = some e.type) : Balanced p (l.consult chunk e).1 requests loadless := by
  obtain ⟨resolve, hw⟩ := b.wired
  simp only [Loader.consult, hw]
  split
  · exact b
  · exact b.signal he none _

theorem perform (b : Balanced p l requests loadless) {frame : Frame} (hf : frame.EndsBy p.type) :
    Balanced p (l.perform frame).1 requests loadless := by
  cases frame with
  | signal s e => exact b.signal hf s.foreign s.waiting
  | abort attempts => exact b.abortAll hf attempts
  | start t => exact hf.elim
  | started t => exact b
  | hand chunk q => exact b.unbooked (.beside rfl rfl rfl rfl rfl)
  | consult chunk e => exact b.consult chunk hf
  | settle t e =>
    unfold Loader.perform
    dsimp only
    split
    · exact b.unbooked (.settleEntry l t e)
    · exact b
  | shut c => exact b.unbooked ((Unbooked.closeCache l).trans (.unloads (.closeRegistry _ c)))
  | collect t got rest => exact hf.elim

theorem drive {frames : List Frame} (hf : ∀ f ∈ frames, f.EndsBy p.type)
    (b : Balanced p l requests loadless) :
    Balanced p (Loader.drive frames l).1 requests loadless :=
  drive_keeps (I := (Balanced p · requests loadless)) (fun _ _ ends b => b.perform ends)
    (fun l t b => b.unbooked (.abandon l t)) (fun l t _ b => b.unbooked (.endTask l t _))
    (fun l c _ _ b => b.unbooked (.unloads (.setClosing l c _))) hf b

/-- One signal, to whatever slot. -/
theorem drive_signal (b : Balanced p l requests loadless) (s : Slot) {e : LoadEvent}
    (he : p.type = some e.type) : Balanced p (l.drive [.signal s e]).1 requests loadless := by
  refine b.drive fun f hf => ?_
  cases List.mem_singleton.mp hf
  exact he

/-! ### Operations -/

theorem report (b : Balanced p l requests loadless) (chunk : ChunkId) {e : LoadEvent}
    (he : p.type = some e.type) :
    Balanced p ((l.report chunk e).1.drive (l.report chunk e).2).1 requests loadless := by
  unfold Loader.report
  split
  · exact b.unbooked (.note ..)
  · refine b.drive fun f hf => ?_
    simp only [List.mem_cons, List.not_mem_nil, or_false] at hf
    rcases hf with rfl | rfl
    · exact he
    · trivial

theorem dispatch (b : Balanced p l requests loadless) (h : HandleId) {type : String}
    (ht : p.type = some type) : Balanced p (l.drive (l.dispatch h type)).1 requests loadless := by
  unfold Loader.dispatch
  split
  · exact b.drive_signal _ ht
  · exact b

theorem invoke_request (b : Balanced p l requests loadless) (hp : p.type = some "load")
    (chunk : ChunkId) :
    Yields (Balanced p · (requests + (reached [chunk] l).length)
      (loadless + (reached [chunk] l).countP unresolved)) (l.invoke (.request chunk)) := by
  rw [reached_single]
  cases ho : l.closed with
  | true =>
    simp only [Loader.invoke, Loader.request, ho, if_true]
    exact b
  | false =>
    simp only [Bool.false_eq_true, if_false, List.length_singleton, List.countP_singleton]
    rcases b.request ho chunk with ⟨l₁, q, hr, hn, b₁⟩ | ⟨l₁, t, hr, rfl, hb, hplan, b₁⟩
    · simp only [Loader.invoke, hr, unresolved, hn, Bool.false_and, Bool.false_eq_true, if_false]
      exact b₁.unbooked (.beside rfl rfl rfl rfl rfl)
    · have refused : unresolved (l, t.chunk) = l₁.refuses t.chunk := by
        simp [unresolved, hb, refuses, hplan]
      have started := b₁.start hp t
      simp only [Loader.invoke, hr, refused]
      show Balanced p (l₁.drive [.start t, .hand t.chunk t.promise]).1 _ _
      cases hs : l₁.start t with
      | mk l₂ flow =>
        rw [hs] at started
        cases flow with
        | through =>
          have handed := started.unbooked (.hand l₂ t.chunk t.promise)
          simpa only [Loader.drive, Loader.perform, hs] using handed
        | calls c left => simpa only [Loader.drive, Loader.perform, hs] using started
        | fails f => simpa only [Loader.drive, Loader.perform, hs, Loader.unwind] using started

theorem invoke (b : Balanced p l requests loadless) {op : Operation} (hop : op.Outer)
    (ha : ∀ h, op ≠ .attach h) (hp : p.type = op.endType?) :
    Yields (Balanced p · (requests + (l.requestsOf op).length)
      (loadless + (l.requestsOf op).countP unresolved)) (l.invoke op) := by
  cases op with
  | request chunk => exact b.invoke_request hp chunk
  | mark chunk e => exact b.unbooked (.mark l chunk e)
  | report chunk e => exact b.report chunk hp
  | reportLater chunk e =>
    simp only [Loader.invoke]
    split
    · exact b.unbooked (.beside rfl rfl rfl rfl rfl)
    · exact b
  | redeem t e => exact hop.elim
  | closeCache => exact hop.elim
  | load chunk url done => exact hop.elim
  | settle chunk e =>
    simp only [Loader.invoke]
    split
    · exact b
    · exact b.drive_signal _ hp
  | closeLoads =>
    refine b.drive fun f hf => ?_
    cases List.mem_singleton.mp hf
    exact hp
  | closeRegistry => exact b.unbooked (.unloads ((Unloads.newClosing l).trans (.closeRegistry _ _)))
  | close =>
    cases hcl : l.closed with
    | true =>
      simp only [Loader.invoke, hcl]
      exact b
    | false =>
      have closing : Balanced p l.closing requests loadless :=
        b.unbooked (.beside rfl rfl rfl rfl rfl)
      rw [invoke_close hcl]
      refine closing.drive fun f hf => ?_
      simp only [List.mem_cons, List.not_mem_nil, or_false] at hf
      rcases hf with rfl | rfl
      · exact hp
      · trivial
  | plant handle => exact b.unbooked (.plant l handle)
  | create url tag => exact b.unbooked (.beside rfl rfl rfl rfl rfl)
  | createPlain url tag => exact b.unbooked (.beside rfl rfl rfl rfl rfl)
  | attach h => exact absurd rfl (ha h)
  | remove h => exact b.unbooked (.remove l h)
  | complete url type =>
    simp only [Loader.invoke]
    split
    · exact b
    · exact b.dispatch _ hp
  | dispatch h type => exact b.dispatch h hp
  | notify s e => exact b.drive_signal s hp
  | assign h onLoad onError loading => exact b.unbooked (.beside rfl rfl rfl rfl rfl)
  | ensure chunks => exact b.unbooked (.beside rfl rfl rfl rfl rfl)
  | cancelPromise q => exact b.unbooked (.inner (l.inner_cancelPromise q))
  | cancelTask t => exact b.unbooked (.inner (l.inner_cancelTask t))
  | respond url r => exact b.unbooked (.unloads (.respond l url r))
  | cancelClosing c => exact b.unbooked (.unloads (.cancelClosing l c))
  | clientClosed c problem => exact b.unbooked (.unloads (.clientClosed l c problem))
  | prompt url r => cases r <;> exact b.unbooked (.beside rfl rfl rfl rfl rfl)

/-! ### Jobs -/

theorem takeAnswer (b : Balanced p l requests loadless) (f : FetchId)
    (hp : p.type = l.jobEndType? (.answer f)) :
    Balanced p ((l.takeAnswer f).1.drive (l.takeAnswer f).2).1 requests loadless := by
  unfold Loader.takeAnswer
  split
  · rename_i h reply hf
    split
    · rename_i x hx
      obtain ⟨log, htake⟩ := takeReply_record (l := l.endFetch f) hx x.url reply
      have type : p.type = some reply.signal := by rw [hp, jobEndType?, hf]
      have recorded : Balanced p
          { l.endFetch f with
            handles := l.handles.update h (·.record reply.record)
            log := l.log ++ log } requests loadless :=
        b.unbooked (.beside rfl rfl rfl rfl rfl)
      rw [htake]
      exact recorded.drive_signal _ (e := (l.endFetch f).signalFrom h reply.signal) type
    · exact b
  · exact b.unbooked (.unloads (.endFetch l f))
  · exact b

theorem runJob (b : Balanced p l requests loadless) {j : Job} (hp : p.type = l.jobEndType? j) :
    Balanced p ((l.runJob j).1.drive (l.runJob j).2).1 (requests + (l.requestsOfJob j).length)
      (loadless + (l.requestsOfJob j).countP unresolved) := by
  cases j with
  | report chunk e => exact b.report chunk hp
  | startTask task =>
    rcases ht : l.tasks.get? task with _ | ⟨chunks, _ | _⟩ | w | r
    · simp only [Loader.runJob, Loader.startTask, requestsOfJob, ht]
      exact b
    · simp only [Loader.runJob, Loader.startTask, requestsOfJob, ht, fst_drive_single]
      exact b.collect hp task chunks []
    · simp only [Loader.runJob, Loader.startTask, requestsOfJob, ht]
      exact b.unbooked (.endTask l task .cancelled)
    · simp only [Loader.runJob, Loader.startTask, requestsOfJob, ht]
      exact b
    · simp only [Loader.runJob, Loader.startTask, requestsOfJob, ht]
      exact b
  | childSettled task q =>
    obtain ⟨tasks, ready, h⟩ := l.childSettled_eq task q
    simp only [Loader.runJob, h]
    exact b.unbooked (.beside rfl rfl rfl rfl rfl)
  | wakeTask task =>
    obtain ⟨tasks, h⟩ := l.wakeTask_eq task
    simp only [Loader.runJob, h]
    exact b.unbooked (.beside rfl rfl rfl rfl rfl)
  | ask f =>
    simp only [Loader.runJob, Loader.ask]
    split
    · rename_i h hf
      cases hprompt : l.promptFor? h with
      | some reply =>
        have answered : Balanced p (l.setStage f (.answered reply)) requests loadless :=
          b.unbooked (.unloads (.setStage l f _))
        exact answered.takeAnswer f (hp.trans (jobEndType?_ask hf hprompt).symm)
      | none => exact b.unbooked (.unloads (.setStage l f _))
    · exact b.unbooked (.unloads (.endFetch l f))
    · exact b
  | answer f => exact b.takeAnswer f hp
  | forget f => exact b
  | fetchEnded c f => exact b.unbooked (.unloads (.fetchEnded l c f))
  | wakeClosing c => exact b.unbooked (.unloads (.wakeClosing l c))

/-! ## §3 Pages -/

/-- The next page begins where this one ends. -/
theorem turn (b : Balanced p l requests loadless) {ended : String → Nat}
    (he : ∀ type, (ended type : Int) = p.endedBy l type) (type : Option String) :
    Balanced ⟨l, ended, type⟩ l requests loadless where
  tallied := by
    obtain ⟨t, ht, reads⟩ := b.tallied
    refine ⟨t, ht, { reads with ended := fun other => ?_ }⟩
    rw [reads.ended other, ← he]
    simp [Page.endedBy]
  begun := b.begun
  single := b.single
  listed := b.listed
  wired := b.wired
  ages := fun _ x hx => ⟨x, hx, id⟩
  endless := fun _ => rfl

end Balanced

/-- A load is active or has ended. -/
theorem Orderly.length_active (h : l.Orderly none) :
    l.active.length + l.ended = l.attempts.size := by
  have waiting : l.active.Perm ((List.range l.attempts.size).filter fun a => !l.hasEnded a) := by
    refine (List.perm_ext_iff_of_nodup h.nodup (List.nodup_range.filter _)).mpr fun a => ?_
    rw [h.active_iff, List.mem_filter, List.mem_range, Table.lt_size_iff]
    unfold hasEnded
    cases l.attempts.get? a <;> simp
  have ended : l.ended = (List.range l.attempts.size).countP l.hasEnded :=
    l.attempts.count_eq_range _ (Nat.le_refl _)
  have split := (List.range l.attempts.size).length_eq_countP_add_countP l.hasEnded
  simp only [List.length_range, Bool.not_eq_true, Bool.decide_eq_false] at split
  rw [waiting.length_eq, ended, ← List.countP_eq_length_filter]
  omega

theorem hasEnded_iff {a : AttemptId} :
    l.hasEnded a = true ↔ ∃ x, l.attempts.get? a = some x ∧ x.settled = true := by
  unfold hasEnded
  cases l.attempts.get? a <;> simp

namespace Ages

/-- Loads that have ended stay so. -/
theorem hasEnded (h : l.Ages l') {a : AttemptId} (ha : l.hasEnded a = true) :
    l'.hasEnded a = true := by
  obtain ⟨x, hx, hs⟩ := hasEnded_iff.mp ha
  obtain ⟨y, hy, hys⟩ := h a x hx
  exact hasEnded_iff.mpr ⟨y, hy, hys hs⟩

theorem size_le (h : l.Ages l') : l.attempts.size ≤ l'.attempts.size := by
  by_contra hlt
  obtain ⟨x, hx⟩ := Table.lt_size_iff.mp (Nat.not_le.mp hlt)
  obtain ⟨y, hy, -⟩ := h _ x hx
  exact Table.ne_size_of_get? hy rfl

/-- The loads that have ended since then are those that make the difference. -/
theorem length_ended (h : l.Ages l') :
    ((List.range l'.attempts.size).filter fun a => l'.hasEnded a && !l.hasEnded a).length +
      l.ended = l'.ended := by
  have before : l.ended = (List.range l'.attempts.size).countP l.hasEnded :=
    l.attempts.count_eq_range _ h.size_le
  have after : l'.ended = (List.range l'.attempts.size).countP l'.hasEnded :=
    l'.attempts.count_eq_range _ (Nat.le_refl _)
  have stayed : ((List.range l'.attempts.size).filter l.hasEnded).countP l'.hasEnded =
      (List.range l'.attempts.size).countP l.hasEnded := by
    rw [List.countP_filter]
    refine List.countP_congr fun a _ => ?_
    simp only [Bool.and_eq_true]
    exact ⟨And.right, fun ha => ⟨h.hasEnded ha, ha⟩⟩
  rw [after, List.countP_eq_countP_filter_add _ _ l.hasEnded, stayed, before, Nat.add_comm,
    List.countP_filter, ← List.countP_eq_length_filter]

end Ages

end Loader

/-- The move leaves it to loads to attach handles. -/
structure Move.Unattached (m : Move) : Prop where
  outer : m.Outer
  unattached : ∀ h, m ≠ .invoke (.attach h)

namespace Run

open Loader (Balanced Page unresolved)

variable {asked : ChunkId → Prop} {p : Page} {r : Run} {m : Move} {n u : Nat}

/-- One move writes one page. -/
theorem balanced_step (rested : r.Rested asked) (b : Balanced p r.loader n u) (hm : m.Unattached)
    (hp : p.type = r.endType? m) :
    Balanced p (r.step m).loader (n + (r.requests m).length)
      (u + (r.requests m).countP unresolved) := by
  have others : (∀ op, m ≠ .invoke op) → m ≠ .runJob → Balanced p (r.step m).loader n u := by
    intro hinvoke hrun
    refine rested.step_keeps (P := fun l => Balanced p l n u) b (fun op h => absurd h (hinvoke op))
      (fun _ _ h => absurd h hrun) ?fired ?clocked ?reordered ?replanned
    case fired =>
      rintro target l work rfl hfire
      obtain ⟨w, hw, heq⟩ := Option.map_eq_some_iff.mp hfire
      cases heq
      have fired : Balanced p ({ r.loader with now := w.due }.disarm w.attempt) n u :=
        b.unbooked (.beside rfl rfl rfl rfl rfl)
      exact fired.drive_signal _ hp
    case clocked => exact fun now _ => b.unbooked (.beside rfl rfl rfl rfl rfl)
    case reordered => exact fun active _ _ => b.unbooked (.beside rfl rfl rfl rfl rfl)
    case replanned => exact fun resolve hasAsset _ => b.unbooked (.replan r.loader resolve hasAsset)
  cases m with
  | invoke op =>
    have invoked := b.invoke hm.outer (fun h e => hm.unattached h (by rw [e])) hp
    cases hop : r.loader.invoke op with
    | mk l answer =>
      rw [hop] at invoked
      cases answer with
      | error f =>
        simp only [step, hop]
        exact invoked
      | ok x =>
        simp only [step, hop, after_loader]
        exact invoked
  | runJob =>
    cases hidle : r.idle with
    | false =>
      simp only [step, requests, hidle]
      exact b
    | true =>
      cases hready : r.loader.ready with
      | nil =>
        simp only [step, requests, hidle, Loader.nextJob?, hready]
        exact b
      | cons j rest =>
        have popped : Balanced p { r.loader with ready := rest } n u :=
          b.unbooked (.beside rfl rfl rfl rfl rfl)
        have type : p.type = ({ r.loader with ready := rest } : Loader).jobEndType? j := by
          rw [hp, endType?, Loader.nextJob?, hready]
          rfl
        simp only [step, requests, hidle, Loader.nextJob?, hready, after_loader]
        exact popped.runJob type
  | _ =>
    simp only [requests, List.length_nil, List.countP_nil, Nat.add_zero]
    exact others (by simp) (by simp)

/-- The loads that a move ends are counted under the one type of the move. -/
theorem countP_endings (r : Run) (m : Move) (type : String) :
    (r.endings m).countP (·.2 = type) =
      if r.endType? m = some type then (r.settledBy m).length else 0 := by
  unfold endings
  cases h : r.endType? m with
  | none => rfl
  | some type' =>
    rw [List.countP_map]
    by_cases ht : type' = type
    · simp [ht, Function.comp_def]
    · simp [ht, Function.comp_def]

/-- A move that ends loads has a type of signals to end them by. -/
theorem map_endings {ended : String → Nat}
    (b : Balanced ⟨r.loader, ended, r.endType? m⟩ (r.step m).loader n u) :
    (r.endings m).map (·.1) = r.settledBy m := by
  unfold endings
  cases h : r.endType? m with
  | none =>
    have length := b.ages.length_ended
    have still : (r.step m).loader.ended = r.loader.ended := b.endless h
    rw [still] at length
    exact (List.eq_nil_of_length_eq_zero (Nat.add_eq_right.mp length)).symm
  | some type => simp [Function.comp_def]

/-- A history of such moves writes one page after the other. -/
theorem balanced_steps (rested : r.Rested asked) (hn : r.loader.attempts = {})
    (b : Balanced ⟨r.loader, fun _ => 0, none⟩ r.loader 0 0) {ms : List Move}
    (hms : ∀ m ∈ ms, m.Unattached ∧ m.Asks asked) :
    Rested asked (r.steps ms) ∧
      Balanced ⟨(r.steps ms).loader, fun type => (r.ends ms).countP (·.2 = type), none⟩
        (r.steps ms).loader (r.requested ms).length ((r.requested ms).countP unresolved) ∧
      ((r.ends ms).map (·.1)).Nodup ∧
        ∀ a, a ∈ (r.ends ms).map (·.1) ↔ (r.steps ms).loader.hasEnded a = true := by
  induction ms using List.reverseRecOn with
  | nil =>
    refine ⟨rested, b, List.nodup_nil, fun a => ?_⟩
    simp [ends, steps, Loader.hasEnded, hn, Table.get?]
  | append_singleton ms m ih =>
    obtain ⟨rested', b', nodup, listed⟩ := ih fun m' hm' => hms m' (List.mem_append_left _ hm')
    obtain ⟨hm, ha⟩ := hms m (List.mem_append_right _ (List.mem_singleton.mpr rfl))
    have page : Balanced
        ⟨(r.steps ms).loader, fun type => (r.ends ms).countP (·.2 = type), (r.steps ms).endType? m⟩
        (r.steps ms).loader (r.requested ms).length ((r.requested ms).countP unresolved) :=
      b'.turn (fun type => by simp [Page.endedBy]) _
    have written := balanced_step rested' page hm rfl
    have ages : (r.steps ms).loader.Ages ((r.steps ms).step m).loader := written.ages
    have length : ((r.steps ms).settledBy m).length + (r.steps ms).loader.ended =
        ((r.steps ms).step m).loader.ended := ages.length_ended
    rw [steps_concat, requested_concat, ends_concat, List.map_append, map_endings written]
    refine ⟨(rested'.acts hm.outer ha).2, ?_, ?_, fun a => ?_⟩
    · rw [List.length_append, List.countP_append]
      refine written.turn (fun type => ?_) none
      rw [List.countP_append, countP_endings]
      simp only [Page.endedBy]
      split
      · push_cast
        omega
      · simp
    · refine List.nodup_append.mpr ⟨nodup, List.nodup_range.filter _, fun a ha b hb e => ?_⟩
      have hb' := (List.mem_filter.mp hb).2
      rw [← e, (listed a).mp ha, Bool.not_true, Bool.and_false] at hb'
      cases hb'
    · rw [List.mem_append, listed, settledBy, List.mem_filter, List.mem_range]
      constructor
      · rintro (ha | ⟨-, ha⟩)
        · exact ages.hasEnded ha
        · exact (Bool.and_eq_true_iff.mp ha).1
      · intro ha
        obtain ⟨x, hx, -⟩ := Loader.hasEnded_iff.mp ha
        cases hb : (r.steps ms).loader.hasEnded a with
        | true => exact .inl rfl
        | false => exact .inr ⟨Table.lt_size_iff.mpr ⟨x, hx⟩, by simp [ha]⟩

/-! ## §4 The balance -/

/--
What a tally holds of a whole loader, against what the loader itself holds and what its history
tells: the requests that reached the cache, and the loads that ended, each with the type of signal.
-/
structure Conserved (r : Run) (requested : List (Loader × ChunkId))
    (ends : List (AttemptId × String)) (t : Metrics.Tally) : Prop where
  requests : t.total Loader.requestsTotal = requested.length
  starts : t.get Loader.requestsTotal [("result", "start")] =
    (∑ᶠ chunk, r.loader.cache.attemptsAt chunk : Nat)
  /-- An attempt gets a handle unless its address is refused. -/
  handles : t.total Loader.handlesTotal =
    t.get Loader.requestsTotal [("result", "start")] - requested.countP unresolved
  created : ∃ hs n, r.loader.registry = .document hs n ∧
    t.get Loader.handlesTotal [("mode", "created")] = n
  outcomes : t.total Loader.handlesTotal =
    t.total Loader.outcomesTotal + r.loader.active.length
  /-- The loads that ended are listed once each. -/
  once : (ends.map (·.1)).Nodup ∧ ∀ a, a ∈ ends.map (·.1) ↔
    ∃ x, r.loader.attempts.get? a = some x ∧ x.settled = true
  ended : ∀ type, t.get Loader.outcomesTotal [("outcome", type)] =
    ends.countP (·.2 = type)

/--
The counters of a whole loader balance, after any history that leaves it to loads to attach
handles. The history may end while observers are being called, and these may use the loader again
or raise; the addresses may be refused at any time.
-/
theorem counters_conserved {policy : Policy} {resolve : ChunkId → Except Fault String}
    {hasAsset : ChunkId → Bool} {installed : List (ChunkId × String)} {cache : Cache}
    {ms : List Move} (hc : Cache.seed installed = .ok cache) (hms : ∀ m ∈ ms, m.Unattached) :
    let opened : Run :=
      { loader := .whole policy resolve hasAsset cache (.document [] 0) (.tally {}) }
    ∃ t, (opened.steps ms).loader.sink = .tally t ∧
      Conserved (opened.steps ms) (opened.requested ms) (opened.ends ms) t := by
  intro opened
  have rested : opened.Rested fun _ => True :=
    .opened _ policy resolve hasAsset hc (.document [] 0) (.tally {})
  obtain ⟨-, -, attempts⟩ := Cache.seed_spec hc
  have blank : Balanced ⟨opened.loader, fun _ => 0, none⟩ opened.loader 0 0 := by
    have begun : cache.begun = 0 := by simp [Cache.begun, attempts]
    refine ⟨⟨{}, rfl, ?_⟩, begun, ?_, rfl, ⟨resolve, rfl⟩, fun _ x hx => ⟨x, hx, id⟩, fun _ => rfl⟩
    · show Metrics.Tally.Reads {} 0 cache.begun 0 0 0 _
      rw [begun]
      exact ⟨rfl, rfl, rfl, rfl, rfl, fun _ => rfl⟩
    · show cache.attempts.keys.Nodup
      rw [attempts]
      exact List.nodup_nil
  obtain ⟨-, books, nodup, listed⟩ :=
    balanced_steps rested rfl blank fun m hm => ⟨hms m hm, m.asks_all⟩
  have reach : Reachable (fun _ m => m.Outer) opened (opened.steps ms) :=
    Reachable.start.steps ms fun _ m hm => (hms m hm).outer
  have settled : opened.Settled :=
    ⟨Loader.coupled_whole policy resolve hasAsset hc _ (Metrics.Sink.steady_tally _),
      by simp [opened]⟩
  have orderly := (Settled.of_reachable settled reach).coupled.orderly
  obtain ⟨t, ht, reads⟩ := books.tallied
  refine ⟨t, ht, ?_⟩
  have size := orderly.length_active
  have begun := books.begun
  constructor
  · exact reads.requests
  · rw [reads.starts, Cache.finsum_attemptsAt books.single]
  · rw [reads.handles, reads.starts]
    omega
  · cases hr : (opened.steps ms).loader.registry with
    | document hs n =>
      refine ⟨hs, n, rfl, ?_⟩
      rw [reads.created, hr]
      rfl
    | keyed entries client =>
      have listed := books.listed
      rw [hr] at listed
      cases listed
  · rw [reads.handles, reads.outcomes]
    omega
  · exact ⟨nodup, fun a => (listed a).trans Loader.hasEnded_iff⟩
  · intro type
    rw [reads.ended type]
    simp [Page.endedBy]

/--
Two chunks of one address, of which the second joins the first one's handle, a third one whose
address is refused, and a fourth that finds the handle complete. The observer behind the two loads
has not returned yet.
-/
theorem counters_conserved_of_four :
    let resolve : ChunkId → Except Fault String := fun chunk =>
      if chunk = .name "x" then .error .closed else .ok "/a.css"
    let opened : Run :=
      { loader := .whole {} resolve (fun _ => true) {} (.document [] 0) (.tally {}) }
    let ms : List Move :=
      [.invoke (.plant { url := "/a.css", loading := true, onLoad := { foreign := some 7 } }),
        .invoke (.request (.name "a")), .invoke (.request (.name "b")),
        .invoke (.request (.name "x")), .invoke (.dispatch 0 "load"),
        .invoke (.request (.name "c")), .invoke (.request (.name "a"))]
    (∃ t, (opened.steps ms).loader.sink = .tally t ∧
      Conserved (opened.steps ms) (opened.requested ms) (opened.ends ms) t) ∧
      (opened.steps ms).suspended.length = 1 ∧ (opened.requested ms).length = 5 ∧
        (opened.requested ms).countP unresolved = 1 ∧
          opened.ends ms = [(0, "load"), (1, "load"), (2, "load")] := by
  intro resolve opened ms
  have hc : Cache.seed [] = .ok {} := rfl
  have hms : ∀ m ∈ ms, m.Unattached := by
    intro m hm
    simp only [ms, List.mem_cons, List.not_mem_nil, or_false] at hm
    rcases hm with rfl | rfl | rfl | rfl | rfl | rfl | rfl
    all_goals exact ⟨trivial, by simp⟩
  have balance := @counters_conserved {} resolve (fun _ => true) [] {} ms hc hms
  refine ⟨?_, by decide, by decide, by decide, by decide⟩
  unfold opened
  exact balance

end Run

end SingleFlight
