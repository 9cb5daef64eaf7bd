/-
SingleFlight.Proofs.Lines — who stands in the slots of a handle.

A load that begins to wait for a handle goes to the front of both of its slots,
and the first load of the handle that ends empties them. So from a time at which
no load stands in the slots, and as long as no load of the handle ends, each slot
holds all the loads that have begun since, the newest first, and behind them what
was in the slot before. This is so in every use in which nobody but loads writes
to the slots once a load is there.

* `Loader.loadsSince` — the loads of a handle since then, the newest first;
  `Loader.Together` — none of the loads of the handle has ended since then.
* `Loader.Lined` — the invariant, about one handle and what may stand behind its
  loads; `keep`, `begin` and `conclude` are the changes that it survives.
* `Run.LeavesLine` — the moves that do not write to the slots in between.
-/
import SingleFlight.Proofs.Shared
import SingleFlight.Proofs.Shutdown

namespace SingleFlight

/-- A slot in which no load stands; `P` says what may stand in it otherwise. -/
def Slot.Vacant (P : Option CallbackId → Prop) (s : Slot) : Prop :=
  s.waiting = [] ∧ P s.foreign

namespace Handle

theorem slotFor_observe (x : Handle) (a : AttemptId) (type : String) :
    (x.observe a).slotFor type =
      { waiting := a :: (x.slotFor type).waiting, foreign := (x.slotFor type).foreign } := by
  unfold slotFor
  split <;> rfl

theorem slotFor_release (x : Handle) (type : String) : x.release.slotFor type = {} := by
  unfold slotFor
  split <;> rfl

theorem slotFor_vacant {x : Handle} {P : Option CallbackId → Prop} (hload : x.onLoad.Vacant P)
    (herror : x.onError.Vacant P) (type : String) : (x.slotFor type).Vacant P := by
  unfold slotFor
  split
  · exact hload
  · exact herror

/-- A handle that nobody observes. -/
theorem slotFor_unset {x : Handle} {P : String → Option CallbackId → Prop}
    (hP : ∀ type, P type none) (hload : x.onLoad = {}) (herror : x.onError = {})
    (type : String) : (x.slotFor type).Vacant (P type) := by
  refine slotFor_vacant ?_ ?_ type
  · rw [hload]
    exact ⟨rfl, hP type⟩
  · rw [herror]
    exact ⟨rfl, hP type⟩

theorem slotFor_congr {x y : Handle} (hload : y.onLoad = x.onLoad) (herror : y.onError = x.onError)
    (type : String) : y.slotFor type = x.slotFor type := by
  unfold slotFor
  rw [hload, herror]

end Handle

namespace Loader

variable {l₀ l l' : Loader} {h : HandleId} {P : String → Option CallbackId → Prop}

/-! ## §1 The loads of a handle -/

/-- The loads of a handle that have begun since, the newest first. -/
def loadsSince (l₀ l : Loader) (h : HandleId) : List AttemptId :=
  (List.range l.attempts.size).reverse.filter fun a =>
    decide (l₀.attempts.size ≤ a) && (l.attempts.get? a).any (·.handle == h)

/-- No load of the handle has ended since. -/
def Together (l₀ l : Loader) (h : HandleId) : Prop :=
  ∀ a x, l.attempts.get? a = some x → x.handle = h → x.settled = true →
    ∃ x₀, l₀.attempts.get? a = some x₀ ∧ x₀.settled = true

theorem mem_loadsSince {a : AttemptId} :
    a ∈ l₀.loadsSince l h ↔ l₀.attempts.size ≤ a ∧ l.On h a := by
  unfold loadsSince On
  rw [List.mem_filter, List.mem_reverse, List.mem_range, Bool.and_eq_true, decide_eq_true_iff,
    Option.any_eq_true]
  constructor
  · rintro ⟨-, hle, x, hx, hxh⟩
    exact ⟨hle, x, hx, by simpa using hxh⟩
  · rintro ⟨hle, x, hx, hxh⟩
    exact ⟨Table.lt_size_iff.mpr ⟨x, hx⟩, hle, x, hx, by simpa using hxh⟩

theorem loadsSince_eq_nil (hno : ∀ a, ¬l.On h a) : l₀.loadsSince l h = [] :=
  List.eq_nil_iff_forall_not_mem.mpr fun a ha => hno a (mem_loadsSince.mp ha).2

/-- Loads are numbered as they begin, so the newest has the highest number. -/
theorem pairwise_loadsSince (l₀ l : Loader) (h : HandleId) :
    (l₀.loadsSince l h).Pairwise (· > ·) := by
  refine List.Pairwise.filter _ (List.pairwise_reverse.mpr ?_)
  exact List.pairwise_lt_range

theorem nodup_loadsSince (l₀ l : Loader) (h : HandleId) : (l₀.loadsSince l h).Nodup :=
  (l₀.pairwise_loadsSince l h).imp fun hgt => Nat.ne_of_gt hgt

theorem loadsSince_congr (hat : l'.attempts = l.attempts) :
    l₀.loadsSince l' h = l₀.loadsSince l h := by
  unfold loadsSince
  rw [hat]

/-- A load that begins is the newest. -/
theorem loadsSince_add {x : Attempt} (hbegun : l₀.attempts.size ≤ l.attempts.size)
    (hat : l'.attempts = l.attempts.add x) :
    l₀.loadsSince l' h =
      if x.handle = h then l.attempts.size :: l₀.loadsSince l h else l₀.loadsSince l h := by
  have old : (List.range l.attempts.size).reverse.filter
      (fun a => decide (l₀.attempts.size ≤ a) &&
        ((l.attempts.add x).get? a).any (·.handle == h)) = l₀.loadsSince l h := by
    refine List.filter_congr fun a ha => ?_
    have hne : a ≠ l.attempts.size := Nat.ne_of_lt (List.mem_range.mp (List.mem_reverse.mp ha))
    rw [Table.get?_add, if_neg hne]
  unfold loadsSince at old ⊢
  rw [hat, Table.size_add, List.range_succ, List.reverse_append, List.reverse_singleton,
    List.singleton_append, List.filter_cons, Table.get?_add_size, old]
  by_cases hx : x.handle = h
  · simp [hx, hbegun]
  · simp [hx]

/-- A load that ends is still one of its handle. -/
theorem loadsSince_settle {a : AttemptId}
    (hat : l'.attempts = l.attempts.update a ({ · with settled := true })) :
    l₀.loadsSince l' h = l₀.loadsSince l h := by
  unfold loadsSince
  rw [hat, Table.size_update]
  refine List.filter_congr fun b _ => ?_
  rw [Table.get?_update]
  split
  · cases l.attempts.get? b <;> rfl
  · rfl

/-- Loads that have ended stay so. -/
theorem Together.of_later (t : l₀.Together l' h) (later : l.Later l') : l₀.Together l h :=
  fun a x hx hxh hs => t a x (later a x hx hs) hxh hs

/-! ## §2 The invariant -/

/--
As long as no load of a handle ends, both slots hold all loads that it has got since, the newest
first, and what stands behind them is up to `P`.
-/
structure Lined (l₀ : Loader) (P : String → Option CallbackId → Prop) (l : Loader) (h : HandleId) :
    Prop where
  placed : ∀ a x, l.attempts.get? a = some x → x.settled = false →
    ∃ handle, l.handles.get? x.handle = some handle
  begun : l₀.attempts.size ≤ l.attempts.size
  later : l₀.Later l
  grown : l₀.handles.Kept l.handles
  slots : l₀.Together l h → ∀ x type, l.handles.get? h = some x →
    (x.slotFor type).waiting = l₀.loadsSince l h ∧ P type (x.slotFor type).foreign

/-- The slots of a handle are as they were, or vacant while the handle has no loads. -/
def LineKept (P : String → Option CallbackId → Prop) (l l' : Loader) (h : HandleId) : Prop :=
  ∀ y, l'.handles.get? h = some y →
    (∃ x, l.handles.get? h = some x ∧ ∀ type, y.slotFor type = x.slotFor type) ∨
      (l.handles.get? h = none ∨ ∀ a, ¬l.On h a) ∧ ∀ type, (y.slotFor type).Vacant (P type)

namespace LineKept

theorem of_eq (hh : l'.handles = l.handles) : LineKept P l l' h := by
  intro y hy
  rw [hh] at hy
  exact .inl ⟨y, hy, fun _ => rfl⟩

theorem add {handle : Handle} (hh : l'.handles = l.handles.add handle)
    (hs : l.handles.size = h → ∀ type, (handle.slotFor type).Vacant (P type)) :
    LineKept P l l' h := by
  intro y hy
  rw [hh, Table.get?_add] at hy
  split at hy
  · rename_i hsize
    cases hy
    subst hsize
    exact .inr ⟨.inl (Table.get?_size _), hs rfl⟩
  · exact .inl ⟨y, hy, fun _ => rfl⟩

/-- A handle changes: another one, or not in its slots. -/
theorem update {k : HandleId} {f : Handle → Handle} (hh : l'.handles = l.handles.update k f)
    (hf : k = h → ∀ x, l.handles.get? h = some x →
      (∀ type, (f x).slotFor type = x.slotFor type) ∨
        (∀ a, ¬l.On h a) ∧ ∀ type, ((f x).slotFor type).Vacant (P type)) :
    LineKept P l l' h := by
  intro y hy
  rw [hh, Table.get?_update] at hy
  split at hy
  · rename_i hk
    obtain ⟨x, hx, rfl⟩ := Option.map_eq_some_iff.mp hy
    rcases hf hk x hx with same | ⟨hno, vacant⟩
    · exact .inl ⟨x, hx, same⟩
    · exact .inr ⟨.inr hno, vacant⟩
  · exact .inl ⟨y, hy, fun _ => rfl⟩

end LineKept

namespace Lined

/-- A handle that is not there yet has no loads that wait for it. -/
theorem loadsSince_of_absent (i : Lined l₀ P l h) (t : l₀.Together l h)
    (hh : l.handles.get? h = none) : l₀.loadsSince l h = [] := by
  refine List.eq_nil_iff_forall_not_mem.mpr fun a ha => ?_
  obtain ⟨hle, x, hx, hxh⟩ := mem_loadsSince.mp ha
  cases hs : x.settled with
  | true =>
    obtain ⟨x₀, hx₀, -⟩ := t a x hx hxh hs
    exact absurd (Table.lt_size_iff.mpr ⟨x₀, hx₀⟩) (Nat.not_lt.mpr hle)
  | false =>
    obtain ⟨handle, hrow⟩ := i.placed a x hx hs
    rw [hxh, hh] at hrow
    cases hrow

/-- The slots are vacant while there are no loads that could stand in them. -/
theorem vacant (i : Lined l₀ P l h) (t : l₀.Together l h)
    (hno : l.handles.get? h = none ∨ ∀ a, ¬l.On h a) {y : Handle}
    {type : String} (hv : (y.slotFor type).Vacant (P type)) :
    (y.slotFor type).waiting = l₀.loadsSince l h ∧ P type (y.slotFor type).foreign := by
  obtain ⟨hw, hf⟩ := hv
  refine ⟨hw.trans ?_, hf⟩
  rcases hno with hnone | hno
  · exact (i.loadsSince_of_absent t hnone).symm
  · exact (loadsSince_eq_nil hno).symm

theorem keep (i : Lined l₀ P l h) (hat : l'.attempts = l.attempts)
    (hk : l.handles.Kept l'.handles) (hs : LineKept P l l' h) : Lined l₀ P l' h where
  placed := by
    intro a x hx hx'
    rw [hat] at hx
    obtain ⟨handle, hrow⟩ := i.placed a x hx hx'
    exact hk _ handle hrow
  begun := by
    rw [hat]
    exact i.begun
  later := i.later.trans (.of_eq hat)
  grown := i.grown.trans hk
  slots := by
    intro t y type hy
    have t' : l₀.Together l h := t.of_later (.of_eq hat)
    rw [loadsSince_congr hat]
    rcases hs y hy with ⟨x, hx, same⟩ | ⟨hno, vacant⟩
    · rw [same]
      exact i.slots t' x type hx
    · exact i.vacant t' hno (vacant type)

theorem same (i : Lined l₀ P l h) (hat : l'.attempts = l.attempts)
    (hh : l'.handles = l.handles) : Lined l₀ P l' h :=
  i.keep hat (by rw [hh]; exact .refl) (.of_eq hh)

/--
A load begins to wait on a handle and goes to the front of its slots, or it is on a handle that it
ends on at once.
-/
theorem begin (i : Lined l₀ P l h) {x : Attempt} (hat : l'.attempts = l.attempts.add x)
    (hk : l.handles.Kept l'.handles)
    (row : x.settled = false → ∃ handle, l'.handles.get? x.handle = some handle)
    (other : x.handle ≠ h → LineKept P l l' h)
    (own : x.handle = h → x.settled = false → ∀ y, l'.handles.get? h = some y →
      ∃ z, y = z.observe l.attempts.size ∧ (l.handles.get? h = some z ∨
        l.handles.get? h = none ∧ ∀ type, (z.slotFor type).Vacant (P type))) :
    Lined l₀ P l' h where
  placed := by
    intro b y hy hys
    rw [hat, Table.get?_add] at hy
    split at hy
    · cases hy
      exact row hys
    · obtain ⟨handle, hrow⟩ := i.placed b y hy hys
      exact hk _ handle hrow
  begun := by
    rw [hat, Table.size_add]
    exact Nat.le_succ_of_le i.begun
  later := i.later.trans (.add hat)
  grown := i.grown.trans hk
  slots := by
    intro t y type hy
    have t' : l₀.Together l h := t.of_later (.add hat)
    rw [loadsSince_add i.begun hat]
    by_cases hx : x.handle = h
    · rw [if_pos hx]
      have hopen : x.settled = false := by
        rw [← Bool.not_eq_true]
        intro hs
        obtain ⟨x₀, hx₀, -⟩ := t _ x (by rw [hat, Table.get?_add_size]) hx hs
        exact absurd (Table.lt_size_iff.mpr ⟨x₀, hx₀⟩) (Nat.not_lt.mpr i.begun)
      obtain ⟨z, rfl, hz⟩ := own hx hopen y hy
      have stood : (z.slotFor type).waiting = l₀.loadsSince l h ∧
          P type (z.slotFor type).foreign := by
        rcases hz with hz | ⟨hnone, vacant⟩
        · exact i.slots t' z type hz
        · exact i.vacant t' (.inl hnone) (vacant type)
      rw [Handle.slotFor_observe, stood.1]
      exact ⟨rfl, stood.2⟩
    · rw [if_neg hx]
      rcases other hx y hy with ⟨z, hz, same⟩ | ⟨hno, vacant⟩
      · rw [same]
        exact i.slots t' z type hz
      · exact i.vacant t' hno (vacant type)

/-- A load ends; from then on there is nothing to say about its handle. -/
theorem conclude (i : Lined l₀ P l h) {a : AttemptId} {x : Attempt}
    (ha : l.attempts.get? a = some x) (hx : x.settled = false)
    (hat : l'.attempts = l.attempts.update a ({ · with settled := true }))
    (hh : l'.handles = l.handles.update x.handle (·.release)) : Lined l₀ P l' h where
  placed := by
    intro b y hy hys
    rw [hat, Table.get?_update_of_some ha] at hy
    split at hy
    · cases hy
      cases hys
    · obtain ⟨handle, hrow⟩ := i.placed b y hy hys
      rw [hh]
      exact Table.Kept.update _ _ _ handle hrow
  begun := by
    rw [hat, Table.size_update]
    exact i.begun
  later := i.later.trans (.settle hat)
  grown := by
    rw [hh]
    exact i.grown.trans (.update _ _)
  slots := by
    intro t y type hy
    -- The load was open until now, so it has ended since.
    have hne : ¬x.handle = h := by
      intro hxh
      obtain ⟨x₀, hx₀, hs⟩ :=
        t a { x with settled := true } (by rw [hat, Table.get?_update_self ha]) hxh rfl
      have hx' := i.later a x₀ hx₀ hs
      rw [ha] at hx'
      cases hx'
      rw [hx] at hs
      cases hs
    have t' : l₀.Together l h := t.of_later (.settle hat)
    rw [hh, Table.get?_update, if_neg hne] at hy
    rw [loadsSince_settle hat]
    exact i.slots t' y type hy

end Lined

end Loader

/-! ## §3 Moves -/

/--
The move writes nothing to the slots of a handle once a load stands there, and before that nothing
but what `P` admits.
-/
def Run.LeavesLine (P : Option CallbackId → Prop) (h : HandleId) (r : Run) : Move → Prop
  | .invoke (.plant handle) =>
    r.loader.handles.size = h → handle.onLoad.Vacant P ∧ handle.onError.Vacant P
  | .invoke (.assign k onLoad onError _) =>
    k = h → ∀ x, r.loader.handles.get? h = some x →
      (onLoad.getD x.onLoad = x.onLoad ∧ onError.getD x.onError = x.onError) ∨
        (∀ a, ¬r.loader.On h a) ∧ (onLoad.getD x.onLoad).Vacant P ∧
          (onError.getD x.onError).Vacant P
  | _ => True

section Moves

variable {r : Run} {l₀ : Loader} {h : HandleId} {P : String → Option CallbackId → Prop}
  {Q : Option CallbackId → Prop}

theorem Run.LeavesLine.plant {handle : Handle} (hm : r.LeavesLine Q h (.invoke (.plant handle)))
    (hQ : ∀ type f, Q f → P type f) (i : l₀.Lined P r.loader h) :
    l₀.Lined P (r.loader.plant handle).1 h := by
  refine i.keep rfl (.add handle) (.add rfl fun he type => ?_)
  exact (Handle.slotFor_vacant (hm he).1 (hm he).2 type).imp_right (hQ type _)

theorem Run.LeavesLine.assign {k : HandleId} {onLoad onError : Option Slot}
    {loading : Option Bool} (hm : r.LeavesLine Q h (.invoke (.assign k onLoad onError loading)))
    (hQ : ∀ type f, Q f → P type f) (i : l₀.Lined P r.loader h) :
    l₀.Lined P (r.loader.assign k onLoad onError loading) h := by
  refine i.keep rfl (.update _ _) (.update rfl fun hk x hx => ?_)
  rcases hm hk x hx with ⟨hload, herror⟩ | ⟨hno, hload, herror⟩
  · exact .inl (Handle.slotFor_congr hload herror)
  · exact .inr ⟨hno, fun type => (Handle.slotFor_vacant hload herror type).imp_right (hQ type _)⟩

end Moves

end SingleFlight
