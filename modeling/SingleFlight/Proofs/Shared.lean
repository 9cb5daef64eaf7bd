/-
SingleFlight.Proofs.Shared — the loads of a handle and its slots.

Several loads may wait for one handle, whose slots then hold all of them. The
first of them that ends clears the slots, whatever ended it. So at any time the
handle can tell either all of its loads, or none.

* `Loader.Fresh`, `Loader.Spent` — a handle before and after the first of its
  loads ends; `Loader.Shared` says that each handle is one or the other.
* `Run.shared_of_move` — moves keep it, as long as they leave the slots of
  handles alone (`Move.LeavesSlots`).
-/
import SingleFlight.Proofs.Outcomes

namespace SingleFlight

/--
What can be done with loads, short of writing to the slots of handles that loads wait for, or
calling what such a slot held.
-/
def Move.LeavesSlots : Move → Prop
  | .invoke (.assign _ _ _ _) => False
  | .invoke (.notify _ _) => False
  | .invoke (.plant handle) => handle.onLoad.waiting = [] ∧ handle.onError.waiting = []
  | m => m.OfLoads

theorem Move.LeavesSlots.ofLoads {m : Move} (hm : m.LeavesSlots) : m.OfLoads := by
  cases m with
  | invoke op =>
    cases op with
    | assign h onLoad onError loading => exact hm.elim
    | notify s e => exact hm.elim
    | plant handle => trivial
    | _ => exact hm
  | _ => trivial

/-! ## §1 Handles and the loads that wait for them -/

namespace Loader

/-- The load is one of those of the handle. -/
def On (l : Loader) (h : HandleId) (a : AttemptId) : Prop :=
  ∃ x, l.attempts.get? a = some x ∧ x.handle = h

/-- One of the loads of the handle has its outcome. -/
def Parted (l : Loader) (h : HandleId) : Prop :=
  ∃ a x, l.attempts.get? a = some x ∧ x.handle = h ∧ x.settled = true

/-- Loads that have their outcome keep it. -/
def Later (l l' : Loader) : Prop :=
  ∀ a x, l.attempts.get? a = some x → x.settled = true → l'.attempts.get? a = some x

/-- Every load of the handle is in the chain, once. -/
structure Queued (l : Loader) (h : HandleId) (waiting : List AttemptId) : Prop where
  nodup : waiting.Nodup
  mem_iff : ∀ a, a ∈ waiting ↔ l.On h a

/-- A handle that can still tell each of its loads. -/
structure Fresh (l : Loader) (h : HandleId) (handle : Handle) : Prop where
  unsettled : ∀ a x, l.attempts.get? a = some x → x.handle = h → x.settled = false
  onLoad : l.Queued h handle.onLoad.waiting
  onError : l.Queued h handle.onError.waiting

/-- A handle that was let go of when the first of its loads ended. -/
structure Spent (l : Loader) (h : HandleId) (handle : Handle) : Prop where
  onLoad : handle.onLoad = {}
  onError : handle.onError = {}
  loading : handle.loading = false
  parted : l.Parted h

/-- Each handle can tell all its loads, or nobody. -/
def Shared (l : Loader) : Prop :=
  ∀ h handle, l.handles.get? h = some handle → l.Fresh h handle ∨ l.Spent h handle

section Changes

variable {l l' : Loader} {h : HandleId} {handle : Handle} {a : AttemptId} {x : Attempt}

/-- Loads are numbered, so that the next one is not there yet. -/
theorem not_on_size (l : Loader) (h : HandleId) : ¬ l.On h l.attempts.size := by
  rintro ⟨x, hx, -⟩
  exact Table.ne_size_of_get? hx rfl

/-- A handle that is only just made has no loads. -/
theorem Loading.not_on_size (loading : l.Loading none) (a : AttemptId) :
    ¬ l.On l.handles.size a := by
  rintro ⟨x, hx, hxh⟩
  obtain ⟨handle, hget⟩ := loading.placed a x hx
  exact Table.ne_size_of_get? hget hxh

theorem Later.refl (l : Loader) : l.Later l :=
  fun _ _ hx _ => hx

theorem Later.trans {l'' : Loader} (h : l.Later l') (h' : l'.Later l'') : l.Later l'' :=
  fun a x hx hs => h' a x (h a x hx hs) hs

theorem Later.of_eq (hat : l'.attempts = l.attempts) : l.Later l' := by
  intro a x hx _
  rw [hat]
  exact hx

theorem Later.add (hat : l'.attempts = l.attempts.add x) : l.Later l' := by
  intro a y hy _
  rw [hat]
  exact Table.get?_add_of_some hy x

theorem Later.settle
    (hat : l'.attempts = l.attempts.update a ({ · with settled := true })) : l.Later l' := by
  intro b y hy hs
  rw [hat, Table.get?_update, hy]
  split
  · cases y
    cases hs
    rfl
  · rfl

theorem Parted.later (p : l.Parted h) (later : l.Later l') : l'.Parted h := by
  obtain ⟨a, x, hx, hxh, hs⟩ := p
  exact ⟨a, x, later a x hx hs, hxh, hs⟩

theorem Spent.later {handle' : Handle} (s : l.Spent h handle) (later : l.Later l')
    (hload : handle'.onLoad = handle.onLoad) (herror : handle'.onError = handle.onError)
    (hl : handle'.loading = handle.loading) : l'.Spent h handle' where
  onLoad := hload.trans s.onLoad
  onError := herror.trans s.onError
  loading := hl.trans s.loading
  parted := s.parted.later later

/-- None of the loads of a handle that can still tell them has ended. -/
theorem Fresh.not_parted (f : l.Fresh h handle) : ¬ l.Parted h := by
  rintro ⟨a, x, hx, hxh, hs⟩
  rw [f.unsettled a x hx hxh] at hs
  cases hs

theorem on_add (hat : l'.attempts = l.attempts.add x) :
    l'.On h a ↔ l.On h a ∨ (a = l.attempts.size ∧ x.handle = h) := by
  by_cases ha : a = l.attempts.size
  · subst ha
    have hnew := l.not_on_size h
    simp only [hnew, false_or, true_and]
    simp [On, hat, Table.get?_add]
  · simp [On, hat, Table.get?_add, ha]

/-- A slot of a handle without loads. -/
theorem Queued.none (hno : ∀ a, ¬ l.On h a) : l.Queued h [] where
  nodup := List.nodup_nil
  mem_iff := by
    intro a
    simp [hno a]

theorem Queued.congr {waiting : List AttemptId} (q : l.Queued h waiting)
    (hon : ∀ a, l'.On h a ↔ l.On h a) : l'.Queued h waiting where
  nodup := q.nodup
  mem_iff := fun a => (q.mem_iff a).trans (hon a).symm

theorem Queued.cons {waiting : List AttemptId} (q : l.Queued h waiting)
    (hon : ∀ a, l'.On h a ↔ l.On h a ∨ a = l.attempts.size) :
    l'.Queued h (l.attempts.size :: waiting) where
  nodup := List.nodup_cons.mpr ⟨fun hm => l.not_on_size h ((q.mem_iff _).mp hm), q.nodup⟩
  mem_iff := by
    intro a
    rw [List.mem_cons, q.mem_iff, hon, or_comm]

/-- A handle without loads and with nobody's loads in its slots. -/
theorem Fresh.idle (hno : ∀ a, ¬ l.On h a) (hload : handle.onLoad.waiting = [])
    (herror : handle.onError.waiting = []) : l.Fresh h handle where
  unsettled := fun a x ha hx => absurd ⟨x, ha, hx⟩ (hno a)
  onLoad := by rw [hload]; exact .none hno
  onError := by rw [herror]; exact .none hno

/-- The loads of a handle are as before, and so are its slots. -/
theorem Fresh.congr {handle' : Handle} (f : l.Fresh h handle)
    (hsame : ∀ a x, x.handle = h → (l'.attempts.get? a = some x ↔ l.attempts.get? a = some x))
    (hload : handle'.onLoad = handle.onLoad) (herror : handle'.onError = handle.onError) :
    l'.Fresh h handle' := by
  have hon : ∀ a, l'.On h a ↔ l.On h a := by
    intro a
    constructor
    · rintro ⟨x, ha, hx⟩
      exact ⟨x, (hsame a x hx).mp ha, hx⟩
    · rintro ⟨x, ha, hx⟩
      exact ⟨x, (hsame a x hx).mpr ha, hx⟩
  refine ⟨fun a x ha hx => f.unsettled a x ((hsame a x hx).mp ha) hx, ?_, ?_⟩
  · rw [hload]
    exact f.onLoad.congr hon
  · rw [herror]
    exact f.onError.congr hon

/-- One more load waits for a handle. -/
theorem Fresh.observe (f : l.Fresh h handle) (hat : l'.attempts = l.attempts.add x)
    (hx : x.handle = h) (hopen : x.settled = false) :
    l'.Fresh h (handle.observe l.attempts.size) := by
  have hon : ∀ a, l'.On h a ↔ l.On h a ∨ a = l.attempts.size := by
    intro a
    simp [on_add hat, hx]
  refine ⟨fun a y ha hy => ?_, f.onLoad.cons hon, f.onError.cons hon⟩
  rw [hat, Table.get?_add] at ha
  split at ha
  · cases ha
    exact hopen
  · exact f.unsettled a y ha hy

/-- A load that begins on another handle. -/
theorem Fresh.beside (f : l.Fresh h handle) (hat : l'.attempts = l.attempts.add x)
    (hx : x.handle ≠ h) : l'.Fresh h handle := by
  refine f.congr (fun a y hy => ?_) rfl rfl
  rw [hat, Table.get?_add]
  split
  · rename_i ha
    subst ha
    refine ⟨fun e => ?_, fun e => absurd ⟨y, e, hy⟩ (l.not_on_size h)⟩
    cases e
    exact absurd hy hx
  · rfl

/-! ### Changes keep the invariant -/

namespace Shared

theorem aside (sh : l.Shared) (loading : l.Loading none) (aside : Aside l l') : l'.Shared := by
  intro h handle' hh'
  have same : ∀ a x, x.handle = h →
      (l'.attempts.get? a = some x ↔ l.attempts.get? a = some x) := by
    intro a x _
    rw [aside.attempts]
  cases hh : l.handles.get? h with
  | some handle =>
    obtain ⟨handle₁, hh₁, hload, herror, hl, -⟩ := aside.kept h handle hh
    rw [hh'] at hh₁
    cases hh₁
    rcases sh h handle hh with fresh | spent
    · exact .inl (fresh.congr same hload herror)
    · exact .inr (spent.later (.of_eq aside.attempts) hload herror hl)
  | none =>
    obtain ⟨hload, herror⟩ := aside.added h handle' hh' hh
    have hno : ∀ a, ¬ l'.On h a := by
      rintro a ⟨x, hx, rfl⟩
      rw [aside.attempts] at hx
      obtain ⟨handle, hget⟩ := loading.placed a x hx
      rw [hh] at hget
      cases hget
    exact .inl (.idle hno (by rw [hload]) (by rw [herror]))

/-- A handle that is planted may have observers of its own, but no loads. -/
theorem plant (sh : l.Shared) (loading : l.Loading none) {made : Handle}
    (hload : made.onLoad.waiting = []) (herror : made.onError.waiting = []) :
    (l.plant made).1.Shared := by
  intro h handle hh
  have hh' : (l.handles.add made).get? h = some handle := hh
  rw [Table.get?_add] at hh'
  split at hh'
  · rename_i hnew
    subst hnew
    cases hh'
    exact .inl (.idle loading.not_on_size hload herror)
  · rcases sh h handle hh' with fresh | spent
    · exact .inl (fresh.congr (fun _ _ _ => .rfl) rfl rfl)
    · exact .inr (spent.later (.of_eq rfl) rfl rfl rfl)

/-- The end of a load concerns no other handle than its own, which is spent from then on. -/
theorem conclude (sh : ∀ k handle, k ≠ x.handle → l.handles.get? k = some handle →
      l.Fresh k handle ∨ l.Spent k handle)
    (ha : l.attempts.get? a = some x) (ended : l.Concluded a x l') : l'.Shared := by
  intro k handle hk
  rw [ended.handles, Table.get?_update] at hk
  split at hk
  · rename_i hsame
    obtain ⟨handle₁, -, rfl⟩ := Option.map_eq_some_iff.mp hk
    exact .inr ⟨rfl, rfl, rfl, a, { x with settled := true }, ended.self ha, hsame, rfl⟩
  · rename_i hne
    rcases sh k handle (fun e => hne e.symm) hk with fresh | spent
    · refine .inl (fresh.congr (fun b y hy => ?_) rfl rfl)
      by_cases hab : a = b
      · subst hab
        rw [ended.self ha, ha]
        constructor
        · intro e
          cases e
          exact absurd hy hne
        · intro e
          cases e
          exact absurd hy hne
      · rw [ended.other hab]
    · exact .inr (spent.later (.settle ended.attempts) rfl rfl rfl)

/-- A load that begins to wait joins the loads of a handle that is waited for already. -/
theorem join (sh : l.Shared) (loading : l.Loading none) (hopen : x.settled = false)
    (hat : l'.attempts = l.attempts.add x) (joined : l.Joined x.handle l') : l'.Shared := by
  intro k handle hk
  -- Loads of the handles that the new load does not wait for.
  have others : x.handle ≠ k → l.handles.get? k = some handle →
      l'.Fresh k handle ∨ l'.Spent k handle := by
    intro hne hget
    rcases sh k handle hget with fresh | spent
    · exact .inl (fresh.beside hat hne)
    · exact .inr (spent.later (.add hat) rfl rfl rfl)
  generalize hx : x.handle = h at joined others
  cases joined with
  | @created made _ hload herror handles =>
    rw [handles, Table.get?_update, Table.get?_add] at hk
    by_cases hnew : k = l.handles.size
    · subst hnew
      simp only [if_true, Option.map_some] at hk
      cases hk
      have fresh : l.Fresh l.handles.size made :=
        .idle loading.not_on_size (by rw [hload]) (by rw [herror])
      exact .inl (fresh.observe hat hx hopen)
    · have hne : l.handles.size ≠ k := fun e => hnew e.symm
      simp only [hne, hnew, if_false] at hk
      exact others hne hk
  | @adopted _ handle₁ _ hh hl handles =>
    rw [handles, Table.get?_update] at hk
    split at hk
    · rename_i hsame
      subst hsame
      rw [hh] at hk
      cases hk
      rcases sh h handle₁ hh with fresh | spent
      · exact .inl (fresh.observe hat hx hopen)
      · rw [spent.loading] at hl
        cases hl
    · rename_i hne
      exact others hne hk

theorem told (sh : l.Shared) (loading : l.Loading none) {Q : AttemptId → LoadEvent → Prop}
    {p : Loader × Progress} (hp : Told Q l p) : p.1.Shared := by
  cases hp with
  | finished => exact sh
  | observed => exact sh
  | told _ ha _ _ hcon _ =>
    exact .conclude (fun k handle _ hk => sh k handle hk) ha (loading.concluded (by simp) ha hcon)

end Shared

end Changes

end Loader

namespace Run

/-! ## §2 Moves keep the invariant -/

section Moves

variable {r : Run} {m : Move}

theorem shared_of_move (w : Watched r) (sh : r.loader.Shared) (hm : m.LeavesSlots) :
    (r.step m).loader.Shared := by
  cases turn_of_move w.loading hm.ofLoads with
  | load chunk url k =>
    rcases step_load w.loading chunk url k with
      ⟨l, h, hstep, -, hat, joined⟩ | ⟨l, h, e, l', hstep, -, hat, hh, hnew, -, ended⟩
    · rw [hstep]
      exact sh.join w.loading rfl hat joined
    · rw [hstep]
      refine Loader.Shared.conclude (fun j handle hne hj => ?_) hnew ended
      rw [hh] at hj
      rcases sh j handle hj with fresh | spent
      · exact .inl (fresh.beside hat fun e => hne e.symm)
      · exact .inr (spent.later (.add hat) rfl rfl rfl)
  | planted handle => exact sh.plant w.loading hm.1 hm.2
  | assigned => exact hm.elim
  | aside hstep aside =>
    rw [hstep]
    exact sh.aside w.loading aside
  | worked hstep origin aside =>
    have loading := aside.loading w.loading
    rw [hstep, after_loader]
    exact (sh.aside w.loading aside).told loading (loading.told_drive origin.ofLoads)
  | resumed hs =>
    rename_i s outer
    have frames : ∀ f ∈ s.rest, f.OfLoads := w.frames s (by rw [hs]; exact List.mem_cons_self ..)
    rw [step_returns hs, after_loader]
    exact sh.told w.loading (w.loading.told_drive frames)
  | raised f hs =>
    rename_i s outer
    have frames : ∀ f ∈ s.rest, f.OfLoads := w.frames s (by rw [hs]; exact List.mem_cons_self ..)
    rw [step_raises hs frames]
    exact sh

theorem later_of_move (w : Watched r) (hm : m.OfLoads) : r.loader.Later (r.step m).loader := by
  have told : ∀ {l : Loader} {p : Loader × Progress}, l.Loading none →
      Loader.Told (fun _ _ => True) l p → l.Later p.1 := by
    intro l p loading hp
    cases hp with
    | finished => exact .refl l
    | observed => exact .refl l
    | told _ ha _ _ hcon _ =>
      exact .settle (loading.concluded (by simp) ha hcon).attempts
  cases turn_of_move w.loading hm with
  | load chunk url k =>
    rcases step_load w.loading chunk url k with
      ⟨l, h, hstep, -, hat, -⟩ | ⟨l, h, e, l', hstep, -, hat, -, -, -, ended⟩
    · rw [hstep]
      exact .add hat
    · rw [hstep]
      exact (Loader.Later.add hat).trans (.settle ended.attempts)
  | planted handle => exact .of_eq rfl
  | assigned h onLoad onError loading => exact .of_eq rfl
  | aside hstep aside =>
    rw [hstep]
    exact .of_eq aside.attempts
  | worked hstep origin aside =>
    have loading := aside.loading w.loading
    rw [hstep, after_loader]
    exact (Loader.Later.of_eq aside.attempts).trans
      (told loading (loading.told_drive origin.ofLoads))
  | resumed hs =>
    rename_i s outer
    have frames : ∀ f ∈ s.rest, f.OfLoads := w.frames s (by rw [hs]; exact List.mem_cons_self ..)
    rw [step_returns hs, after_loader]
    exact told w.loading (w.loading.told_drive frames)
  | raised f hs =>
    rename_i s outer
    have frames : ∀ f ∈ s.rest, f.OfLoads := w.frames s (by rw [hs]; exact List.mem_cons_self ..)
    rw [step_raises hs frames]
    exact .refl _

end Moves

end Run

end SingleFlight
