/-
SingleFlight.Proofs.Endings — loads that end one after the other.

A signal of a handle ends all loads that stand in its slot, and a shutdown ends
all that are active. Each end releases a handle, disarms a watchdog, may take the
handle out of the registry and counts one. Apart from the log this depends on
nothing but the load and the type of the signal. So several ends of one type come
to the same in every order, also if the loads share a handle.

* `Registry.remove_comm`, `remove_of_not_mem` — handles taken out of a registry.
* `Loader.endLoad`, `Loader.endLoads` — the loader after one end and after several,
  but for the log; `conclude_endLoad` says so.
* `Loader.endLoad_comm`, `endLoads_perm` — their order.
* `active_endLoads` and its like — what several ends come to.
* `Loader.Tells` — the call by which a load is told; `Loading.tell_first` is how the
  first of several loads is.
-/
import Mathlib.Logic.Function.Iterate
import SingleFlight.Loader.Run
import SingleFlight.Proofs.Loading

namespace SingleFlight

/-! ## §1 Handles taken out of a registry -/

namespace Pairs

variable {κ α : Type} [DecidableEq κ]

theorem erase_comm (ps : Pairs κ α) (key key' : κ) :
    (ps.erase key).erase key' = (ps.erase key').erase key := by
  simp only [erase, List.filter_filter]
  exact List.filter_congr fun p _ => Bool.and_comm ..

end Pairs

namespace Registry

/-- Two handles are taken out in either order. -/
theorem remove_comm (r : Registry) (h k : HandleId) (url url' : String) :
    (r.remove h url).remove k url' = (r.remove k url').remove h url := by
  cases r with
  | document hs n =>
    simp only [remove]
    rw [List.erase_comm]
  | keyed entries client =>
    simp only [remove]
    by_cases hh : entries.get? url = some h <;> by_cases hk : entries.get? url' = some k
    · -- Under one address there is one handle, so taking it out twice is taking it out.
      simp only [hh, hk, if_true, Pairs.get?_erase]
      by_cases hu : url' = url
      · subst hu
        simp
      · have hu' : ¬url = url' := fun e => hu e.symm
        simp only [if_neg hu, if_neg hu', if_true]
        rw [Pairs.erase_comm]
    · simp only [hh, hk, if_true, if_false, Pairs.get?_erase]
      split
      · simp
      · rfl
    · simp only [hh, hk, if_true, if_false, Pairs.get?_erase]
      split
      · simp
      · rfl
    · simp only [hh, hk, if_false]

theorem remove_of_not_mem {r : Registry} {h : HandleId} (hm : h ∉ r.handles) (url : String) :
    r.remove h url = r := by
  cases r with
  | document hs n =>
    have hm' : h ∉ hs := hm
    simp only [remove, List.erase_of_not_mem hm']
  | keyed entries client =>
    have absent : ¬entries.get? url = some h := fun hget =>
      hm (List.mem_map.mpr ⟨(url, h), Pairs.mem_of_get? hget, rfl⟩)
    simp only [remove, if_neg absent]

end Registry

namespace Table

variable {α : Type}

/-- Two tables with the same rows. -/
theorem ext_get? {t t' : Table α} (h : ∀ i, t.get? i = t'.get? i) : t = t' :=
  congrArg Table.mk (List.ext_getElem? h)

/-- Two rows are changed in either order. -/
theorem update_comm_of_ne (t : Table α) {i j : Nat} (hne : i ≠ j) (f g : α → α) :
    (t.update i f).update j g = (t.update j g).update i f := by
  refine ext_get? fun n => ?_
  simp only [get?_update]
  by_cases hi : i = n
  · subst hi
    simp [hne.symm]
  · simp [hi]

/-- Rows that are changed alike are changed in either order. -/
theorem update_comm (t : Table α) (i j : Nat) (f : α → α) :
    (t.update i f).update j f = (t.update j f).update i f := by
  by_cases hij : i = j
  · rw [hij]
  · exact t.update_comm_of_ne hij f f

/-- A row that is not there is not changed. -/
theorem update_of_none {t : Table α} {i : Nat} (h : t.get? i = none) (f : α → α) :
    t.update i f = t := by
  refine ext_get? fun n => ?_
  rw [get?_update]
  split
  · rename_i hn
    rw [← hn, h]
    rfl
  · rfl

end Table

namespace Loader

variable {l : Loader} {type : String} {a b : AttemptId} {x : Attempt}

/-! ## §2 The end of a load -/

/-- The loader when a load has ended by a signal of a type, but for the log. -/
def endLoad (type : String) (l : Loader) (a : AttemptId) : Loader :=
  match l.attempts.get? a with
  | none => l
  | some x =>
    { l with
      attempts := l.attempts.update a ({ · with settled := true })
      handles := l.handles.update x.handle (·.release)
      watchdogs := l.watchdogs.filter (·.attempt ≠ a)
      registry := l.registryAfter x.handle { type }
      active := l.active.filter (· ≠ a)
      sink := countedEnd l.sink type }

/-- The loader when loads have ended one after the other. -/
def endLoads (type : String) (l : Loader) (as : List AttemptId) : Loader :=
  as.foldl (endLoad type) l

theorem endLoad_of_some (ha : l.attempts.get? a = some x) (type : String) :
    l.endLoad type a =
      { l with
        attempts := l.attempts.update a ({ · with settled := true })
        handles := l.handles.update x.handle (·.release)
        watchdogs := l.watchdogs.filter (·.attempt ≠ a)
        registry := l.registryAfter x.handle { type }
        active := l.active.filter (· ≠ a)
        sink := countedEnd l.sink type } := by
  simp only [endLoad, ha]

/-- The registry when a load has ended, by the address of its handle. -/
theorem registryAfter_eq (l : Loader) (h : HandleId) (e : LoadEvent) :
    l.registryAfter h e =
      if e.isLoad then l.registry
      else (l.handles.get? h).elim l.registry fun handle => l.registry.remove h handle.url := by
  unfold registryAfter remove
  cases l.handles.get? h <;> rfl

/-- The end of a load, as far as it is not about the log. -/
theorem conclude_endLoad (hs : l.sink.Steady) (ha : l.attempts.get? a = some x)
    (e : LoadEvent) : ∃ log, l.conclude a x e = ({ l.endLoad e.type a with log }, none) := by
  obtain ⟨log, hcon⟩ := conclude_counted hs a x e
  refine ⟨log, ?_⟩
  rw [hcon, endLoad_of_some ha]
  rfl

/-- The cache, its promises, the queue and the log have no part in it. -/
theorem endLoad_beside (l : Loader) (cache : Cache) (promises : Promises) (ready : List Job)
    (log : List LogRecord) (type : String) (a : AttemptId) :
    ({ l with cache, promises, ready, log } : Loader).endLoad type a =
      { l.endLoad type a with cache, promises, ready, log } := by
  cases ha : l.attempts.get? a with
  | none => simp only [endLoad, ha]
  | some x =>
    rw [endLoad_of_some ha, endLoad_of_some (l := { l with cache, promises, ready, log }) ha]
    simp only [registryAfter_eq]

theorem endLoads_beside (l : Loader) (cache : Cache) (promises : Promises) (ready : List Job)
    (log : List LogRecord) (type : String) (as : List AttemptId) :
    ({ l with cache, promises, ready, log } : Loader).endLoads type as =
      { l.endLoads type as with cache, promises, ready, log } := by
  induction as generalizing l with
  | nil => rfl
  | cons a rest ih =>
    simp only [endLoads, List.foldl_cons, endLoad_beside]
    exact ih (l.endLoad type a)

theorem endLoads_log (l : Loader) (log : List LogRecord) (type : String) (as : List AttemptId) :
    ({ l with log } : Loader).endLoads type as = { l.endLoads type as with log } := by
  have same := l.endLoads_beside l.cache l.promises l.ready l.log type as
  rw [same]
  exact l.endLoads_beside l.cache l.promises l.ready log type as

/-! ## §3 Their order -/

theorem attempts_endLoad (l : Loader) (type : String) (a : AttemptId) :
    (l.endLoad type a).attempts = l.attempts.update a ({ · with settled := true }) := by
  unfold endLoad
  split
  · rename_i ha
    exact (Table.update_of_none ha _).symm
  · rfl

/-- The others are on the handles that they were on. -/
theorem get?_endLoad (l : Loader) (type : String) (hne : a ≠ b) :
    (l.endLoad type a).attempts.get? b = l.attempts.get? b := by
  rw [attempts_endLoad, Table.get?_update, if_neg hne]

/-- Whichever of two handles is released first, they leave the registry alike. -/
theorem registryAfter_comm (l : Loader) (h k : HandleId) (e : LoadEvent) :
    ({ l with
        handles := l.handles.update h (·.release)
        registry := l.registryAfter h e } : Loader).registryAfter k e =
      ({ l with
        handles := l.handles.update k (·.release)
        registry := l.registryAfter k e } : Loader).registryAfter h e := by
  simp only [registryAfter_eq]
  cases e.isLoad with
  | true => rfl
  | false =>
    -- A handle that is released keeps its address.
    have kept : ∀ (i j : HandleId) (r : Registry),
        ((l.handles.update i (·.release)).get? j).elim r (fun x => r.remove j x.url) =
          (l.handles.get? j).elim r fun x => r.remove j x.url := by
      intro i j r
      rw [Table.get?_update]
      split
      · cases l.handles.get? j <;> rfl
      · rfl
    simp only [Bool.false_eq_true, if_false, kept]
    cases l.handles.get? h with
    | none => rfl
    | some x =>
      cases l.handles.get? k with
      | none => rfl
      | some y => exact Registry.remove_comm ..

/-- Two loads end by signals of one type in either order. -/
theorem endLoad_comm (l : Loader) (type : String) (a b : AttemptId) :
    (l.endLoad type a).endLoad type b = (l.endLoad type b).endLoad type a := by
  by_cases hne : a = b
  · rw [hne]
  have hb := l.get?_endLoad type hne
  have ha := l.get?_endLoad type fun e : b = a => hne e.symm
  cases hx : l.attempts.get? a with
  | none =>
    have same : ∀ l : Loader, l.attempts.get? a = none → l.endLoad type a = l := fun l h => by
      simp only [endLoad, h]
    rw [same l hx, same _ (ha.trans hx)]
  | some x =>
    cases hy : l.attempts.get? b with
    | none =>
      have same : ∀ l : Loader, l.attempts.get? b = none → l.endLoad type b = l := fun l h => by
        simp only [endLoad, h]
      rw [same l hy, same _ (hb.trans hy)]
    | some y =>
      rw [endLoad_of_some (hb.trans hy), endLoad_of_some (ha.trans hx), endLoad_of_some hx,
        endLoad_of_some hy]
      have attempts := l.attempts.update_comm a b ({ · with settled := true })
      have handles := l.handles.update_comm x.handle y.handle (·.release)
      have watchdogs := List.filter_comm (fun w : Watchdog => decide (w.attempt ≠ b))
        (fun w => decide (w.attempt ≠ a)) l.watchdogs
      have active := List.filter_comm (fun c => decide (c ≠ b)) (fun c => decide (c ≠ a)) l.active
      have registry := l.registryAfter_comm x.handle y.handle { type }
      simp only [registryAfter_eq] at registry ⊢
      simp only [attempts, handles, watchdogs, active, registry]

theorem endLoads_perm {as bs : List AttemptId} (hp : as.Perm bs) (l : Loader) (type : String) :
    l.endLoads type as = l.endLoads type bs :=
  hp.foldl_eq' (fun a _ b _ l => l.endLoad_comm type a b) l

/-! ## §4 What they come to -/

section Facets

variable {as : List AttemptId}

theorem endLoads_cons (l : Loader) (type : String) (a : AttemptId) (as : List AttemptId) :
    l.endLoads type (a :: as) = (l.endLoad type a).endLoads type as := rfl

/-- Loads that are there stay there while others end. -/
theorem exists_endLoad (type : String) (a : AttemptId)
    (has : ∀ b ∈ as, ∃ x, l.attempts.get? b = some x) :
    ∀ b ∈ as, ∃ x, (l.endLoad type a).attempts.get? b = some x := by
  intro b hb
  obtain ⟨x, hx⟩ := has b hb
  rw [attempts_endLoad, Table.get?_update, hx]
  split
  · exact ⟨_, rfl⟩
  · exact ⟨_, rfl⟩

/-- Whoever has ended is over, and the others are as they were. -/
theorem get?_endLoads (l : Loader) (type : String) (as : List AttemptId) (b : AttemptId) :
    (l.endLoads type as).attempts.get? b =
      (l.attempts.get? b).map fun x => if b ∈ as then { x with settled := true } else x := by
  induction as generalizing l with
  | nil => simp [endLoads]
  | cons a rest ih =>
    rw [endLoads_cons, ih, attempts_endLoad, Table.get?_update]
    by_cases hab : a = b
    · subst hab
      rw [if_pos rfl, Option.map_map]
      refine Option.map_congr fun x _ => ?_
      simp
    · have hba : b ≠ a := fun e => hab e.symm
      simp [hab, hba]

/-- What is left when some have left, the first before the others. -/
theorem filter_not_mem_cons {β : Type} (of : β → AttemptId) (xs : List β) (a : AttemptId)
    (rest : List AttemptId) :
    (xs.filter (of · ≠ a)).filter (of · ∉ rest) = xs.filter (of · ∉ a :: rest) := by
  rw [List.filter_filter]
  refine List.filter_congr fun x _ => ?_
  simp [Bool.and_comm]

theorem active_endLoads (has : ∀ a ∈ as, ∃ x, l.attempts.get? a = some x) (type : String) :
    (l.endLoads type as).active = l.active.filter (· ∉ as) := by
  induction as generalizing l with
  | nil => simp [endLoads]
  | cons a rest ih =>
    obtain ⟨x, hx⟩ := has a (List.mem_cons_self ..)
    rw [endLoads_cons, ih (exists_endLoad type a fun b hb => has b (List.mem_cons_of_mem a hb)),
      endLoad_of_some hx]
    exact filter_not_mem_cons id l.active a rest

theorem watchdogs_endLoads (has : ∀ a ∈ as, ∃ x, l.attempts.get? a = some x) (type : String) :
    (l.endLoads type as).watchdogs = l.watchdogs.filter (·.attempt ∉ as) := by
  induction as generalizing l with
  | nil => simp [endLoads]
  | cons a rest ih =>
    obtain ⟨x, hx⟩ := has a (List.mem_cons_self ..)
    rw [endLoads_cons, ih (exists_endLoad type a fun b hb => has b (List.mem_cons_of_mem a hb)),
      endLoad_of_some hx]
    exact filter_not_mem_cons Watchdog.attempt l.watchdogs a rest

/-- Each end is counted. -/
theorem sink_endLoads (has : ∀ a ∈ as, ∃ x, l.attempts.get? a = some x) (type : String) :
    (l.endLoads type as).sink = (countedEnd · type)^[as.length] l.sink := by
  induction as generalizing l with
  | nil => rfl
  | cons a rest ih =>
    obtain ⟨x, hx⟩ := has a (List.mem_cons_self ..)
    rw [endLoads_cons, ih (exists_endLoad type a fun b hb => has b (List.mem_cons_of_mem a hb)),
      endLoad_of_some hx, List.length_cons, Function.iterate_succ_apply]

end Facets

/-! ## §5 Loads that are told -/

/-- The load is told of a signal by this call. -/
def Tells (l : Loader) (a : AttemptId) (e : LoadEvent) (c : Call) : Prop :=
  ∃ x k, l.attempts.get? a = some x ∧ x.done = .call k ∧ c = .tell a k e

/-- Whoever tells whom stays the same when loads end. -/
theorem Tells.of_endLoad {e : LoadEvent} {c : Call} (h : (l.endLoad type b).Tells a e c) :
    l.Tells a e c := by
  obtain ⟨x, k, hx, hd, hc⟩ := h
  rw [attempts_endLoad] at hx
  obtain ⟨y, hy, hdone, -⟩ := Loading.attempt_of_settle hx
  exact ⟨y, k, hy, hdone ▸ hd, hc⟩

/-- None of these loads has its outcome yet, and each is listed once. -/
structure AllOpen (l : Loader) (as : List AttemptId) : Prop where
  nodup : as.Nodup
  unsettled : ∀ a ∈ as, ∃ x, l.attempts.get? a = some x ∧ x.settled = false

/-- The first of several loads ends and is told. The others are open still. -/
theorem Loading.tell_first {rest : List AttemptId} (loading : l.Loading none)
    (o : l.AllOpen (a :: rest)) (e : LoadEvent) :
    ∃ k log, l.Tells a e (.tell a k e) ∧
      Loading { l.endLoad e.type a with log } none ∧
      AllOpen { l.endLoad e.type a with log } rest ∧
      ∀ foreign behind, signal e foreign (a :: behind) l =
        ({ l.endLoad e.type a with log }, .calls (.tell a k e) [.signal ⟨behind, foreign⟩ e]) := by
  obtain ⟨hnew, hrest⟩ := List.nodup_cons.mp o.nodup
  obtain ⟨x, hx, hxs⟩ := o.unsettled a (List.mem_cons_self ..)
  obtain ⟨k, hd⟩ := loading.called a x hx
  obtain ⟨l', hcon, loading', -⟩ := loading.conclude (by simp) hx e
  obtain ⟨log, hcon'⟩ := conclude_endLoad loading.steady hx e
  rw [hcon] at hcon'
  cases hcon'
  refine ⟨k, log, ⟨x, k, hx, hd, rfl⟩, loading', ⟨hrest, fun b hb => ?_⟩, fun foreign behind => ?_⟩
  · obtain ⟨y, hy, hys⟩ := o.unsettled b (List.mem_cons_of_mem a hb)
    have hne : a ≠ b := fun e => hnew (e ▸ hb)
    exact ⟨y, (l.get?_endLoad e.type hne).trans hy, hys⟩
  · obtain ⟨l', hcon', hs⟩ := loading.signal_open (by simp) hx hxs hd e foreign behind
    rw [hcon] at hcon'
    cases hcon'
    exact hs

end Loader

/-- A call returns, and the work that made it goes on. -/
theorem Run.step_returns_after (r : Run) (answer : Option Answer) (l : Loader) (call : Call)
    (rest : List Frame) :
    (r.after answer (l, .calling call rest)).step .returns =
      { r with loader := l, calls := r.calls ++ [call] }.after answer (l.drive rest) := rfl

end SingleFlight
