/-
SingleFlight.Proofs.Independence — chunks with different addresses do not meet.

A use of a loader is a list of deeds. Each of them changes the facet of a chunk
as `Terms.play` says, which looks at nothing but the facet; and what is done to
other chunks does not touch it. So a use can be thinned out: without the deeds
that are about other chunks, everything that can be seen of a chunk is the same
after every deed that is left.

* `Apart.answers_report`, `answers_complete`, `answers_close` — the operations
  that `SingleFlight.Proofs.Shifts` leaves.
* `Parted.fires` — watchdogs that fire until none is due.
* `Parted.deed` — one deed.
* `Run.independent` — what this comes to for uses of a loader.
-/
import SingleFlight.Proofs.Histories
import SingleFlight.Proofs.Shifts

namespace SingleFlight

namespace Loader

namespace Apart

variable {terms : Terms} {l l' : Loader} {t : Ticket} {a : AttemptId} {h : HandleId}
  {k : ChunkId} {x : Handle}

/-! ## §1 Operations -/

/-- An outcome is reported for a chunk. -/
theorem answers_report (s : Apart terms l) (k : ChunkId) (e : LoadEvent) :
    Answers terms (fun k' f => if k' = k then terms.finish k e.type e.request f else f) l
      (l.invoke (.report k e)) := by
  cases ht : l.cache.ticketOf? k with
  | none =>
    have idle : l.invoke (.report k e) = (l.noteIdle k e, .ok (.nothing, [])) := by
      simp [invoke, report, ht]
    have c' : Coupled (l.noteIdle k e) none none :=
      s.coupled.congr rfl rfl rfl rfl rfl rfl rfl rfl
    rw [idle]
    refine (s.still c' rfl rfl rfl rfl rfl rfl rfl (fun _ => Iff.rfl) rfl rfl rfl).congr
      fun k' _ => ?_
    split
    · rename_i hk
      subst hk
      exact (Facet.finish_of_ne (state_ne_of_ticketOf? ht) _ _).symm
    · rfl
  | some t =>
    have hk := Cache.chunk_of_ticketOf? ht
    subst hk
    have work : l.invoke (.report t.chunk e) =
        (l, .ok (.nothing, [.consult t.chunk e, .settle t e])) := by
      simp [invoke, report, ht]
    obtain ⟨a, h, f⟩ := s.coupled.flight_of_ticket ht
    obtain ⟨l', hset, -, shift⟩ := s.shift_settleLoad f e
    have drive := s.coupled.drive_report ⟨f.active, h, f.load⟩ ht e
    rw [hset] at drive
    rw [work]
    show Comes _ _ _ (l.drive _)
    rw [drive]
    refine shift.congr fun k' _ => ?_
    split
    · rename_i hk
      rw [hk]
    · rfl

/-- A handle that was made for a chunk gives a signal. -/
theorem answers_dispatch (s : Apart terms l) (hx : l.handles.get? h = some x)
    (made : terms.Made k x) (type : String) :
    Answers terms
      (fun k' f => if k' = k ∧ h ∈ l.registry.handles then
        terms.finish k type (terms.address k) f else f) l (l.invoke (.dispatch h type)) := by
  obtain ⟨l', hd, shift⟩ := s.shift_dispatch hx made type
  have address : terms.address k = some x.url := by
    simp [Terms.address, made.url, Except.toOption]
  show Comes _ _ _ (l.drive (l.dispatch h type))
  rw [hd, address]
  refine shift.congr fun k' _ => ?_
  split
  · rename_i hk
    rw [hk.1]
  · rfl

/-- The registered handle of an address gives a signal, if there is one. -/
theorem answers_complete (s : Apart terms l) (url type : String) :
    Answers terms
      (fun k f => if terms.address k = some url then terms.finish k type (some url) f else f) l
      (l.invoke (.complete url type)) := by
  obtain ⟨hs, m, hreg⟩ := s.document
  -- A chunk in flight has a registered handle of its address.
  have found : ∀ t a h, l.Flight t a h → terms.resolve t.chunk = .ok url →
      l.registry.find? l.handles url none ≠ none := by
    intro t a h f hr hnone
    obtain ⟨x, ⟨hmem, hx⟩, made, -⟩ := s.handle_of_flight f
    have hurl : x.url = url := Except.ok.inj (made.url.symm.trans hr)
    rw [hreg] at hnone hmem
    have hno := List.find?_eq_none.mp hnone h hmem
    simp [hx, Handle.answers, hurl] at hno
  cases hf : l.registry.find? l.handles url none with
  | none =>
    have refused : l.invoke (.complete url type) = (l, .error (.noHandle url)) := by
      simp [invoke, hf]
    rw [refused]
    refine s.refl.congr fun k _ => ?_
    split
    · rename_i ha
      refine (Facet.finish_of_ne (fun hs => ?_) _ _).symm
      obtain ⟨t, ht⟩ := Cache.state_eq_inFlight.mp hs
      obtain ⟨a, h, f⟩ := s.coupled.flight_of_ticket ht
      have hk := Cache.chunk_of_ticketOf? ht
      exact found t a h f (hk ▸ (terms.address_eq_some k).mp ha) hf
    · rfl
  | some h =>
    have answered : l.invoke (.complete url type) = (l, .ok (.handle h, l.dispatch h type)) := by
      simp [invoke, hf]
    have hmem := Registry.find?_mem hf
    obtain ⟨x, hx⟩ := s.tidy.exists_of_mem hmem
    obtain ⟨k₀, made⟩ := s.made h x hx
    have hurl : x.url = url := by
      rw [hreg] at hf
      have hany := List.find?_some hf
      simpa [hx, Handle.answers] using hany
    obtain ⟨l', hd, shift⟩ := s.shift_dispatch hx made type
    rw [answered]
    show Comes _ _ _ (l.drive (l.dispatch h type))
    rw [hd]
    refine shift.congr fun k hk => ?_
    have same : terms.address k = some url ↔ k = k₀ := by
      rw [terms.address_eq_some]
      constructor
      · exact fun hr => (made.eq_of_url hk hr hurl).symm
      · rintro rfl
        exact hurl ▸ made.url
    simp only [same, hmem, and_true, hurl]

/-- Over a registry that fetches nothing, a shutdown of the registry shows nowhere. -/
theorem shift_unloads (s : Apart terms l) (h : Unloads l l') : Shift terms (fun _ f => f) l l' := by
  have c := s.coupled.unloads h
  obtain ⟨fetches, closings, registry, jobs, rfl, hr, -⟩ := h
  have same : registry = l.registry := by
    obtain ⟨hs, m, hreg⟩ := s.document
    rcases hr with rfl | rfl
    · rfl
    · rw [hreg]
      rfl
  subst same
  exact s.still c rfl rfl rfl rfl rfl rfl rfl (fun _ => Iff.rfl) rfl rfl rfl

/-- A shutdown ends whatever is in flight. -/
theorem answers_close (s : Apart terms l) :
    Answers terms (fun k f => terms.play k f .close) l (l.invoke .close) := by
  cases hcl : l.closed with
  | true =>
    have done : l.invoke .close = (l, .ok (.nothing, [])) := by
      simp [invoke, hcl, atOnce]
    rw [done]
    refine s.refl.congr fun k _ => ?_
    exact (if_pos hcl).symm
  | false =>
    have c₀ : Coupled l.closing none none := s.coupled.congr rfl rfl rfl rfl rfl rfl rfl rfl
    have s₀ : Apart terms l.closing :=
      s.congr c₀ rfl rfl rfl rfl (fun _ => Iff.rfl) (fun _ => rfl) (fun _ => id)
    obtain ⟨l₁, hab, c₁, hnil, hdrive⟩ := c₀.drive_shut l.closings.size
    have drive : l.closing.drive [.abort l.active, .shut l.closings.size] =
        (l₁.closeRegistry l.closings.size, .finished) := hdrive
    obtain ⟨l₁', hab', s₁, facets⟩ := s₀.shift_abortAll l.active
    have same : l₁' = l₁ := congrArg Prod.fst (hab'.symm.trans hab)
    subst same
    have shut := s₁.shift_unloads (.closeRegistry l₁' l.closings.size)
    rw [invoke_close hcl]
    show Comes _ _ _ (Loader.drive _ l.closing)
    rw [drive]
    refine ⟨shut.apart, fun k hk => (shut.facet k hk).trans ?_⟩
    -- Nothing is in flight any more, so a chunk to which nothing has happened was not.
    have grounded : (l₁'.facet k).state ≠ .inFlight := by
      intro hs
      obtain ⟨t, ht⟩ := Cache.state_eq_inFlight.mp hs
      obtain ⟨a, h, f⟩ := s₁.coupled.flight_of_ticket ht
      have ha := f.active
      rw [hnil] at ha
      cases ha
    have closing : (l.facet k).closed = false := hcl
    have before : facet l.closing k = { l.facet k with closed := true } := rfl
    have ended : l₁'.facet k =
        terms.finish k "abort" (terms.address k) { l.facet k with closed := true } := by
      rw [← before]
      rcases facets k hk with h | h
      · rw [h] at grounded
        rw [h]
        exact (Facet.finish_of_ne grounded _ _).symm
      · exact h
    rw [ended]
    simp only [Terms.play, closing, Bool.false_eq_true, if_false]
    unfold Terms.finish Facet.finish
    dsimp only
    split <;> rfl

end Apart

/-! ## §2 Time -/

theorem nextDue?_eq_none {l : Loader} {target : Float} :
    l.nextDue? target = none ↔ l.watchdogs.filter (·.due ≤ target) = [] := by
  unfold nextDue?
  split
  · rename_i hnil
    simp [hnil]
  · rename_i w ws hcons
    simp [hcons]

theorem mem_alarmsOf {l : Loader} {k : ChunkId} {w : Watchdog} (hw : w ∈ l.watchdogs)
    (hk : (l.attempts.get? w.attempt).any (·.chunk == k) = true) : w.due ∈ l.alarmsOf k :=
  List.mem_map_of_mem (List.mem_filter.mpr ⟨hw, hk⟩)

end Loader

namespace Terms

variable (terms : Terms) (c : ChunkId) (f : Facet)

theorem expire_clock (target now : Float) :
    terms.expire c target (f.clock now) = (terms.expire c target f).clock now := by
  unfold expire finish
  split
  · rename_i h
    have h' : f.alarms.any (· ≤ target) = true := h
    rw [if_pos h', Facet.finish_clock]
  · rename_i h
    have h' : ¬f.alarms.any (· ≤ target) = true := h
    rw [if_neg h']

/-- An attempt whose watchdog is due ends, and then none of its watchdogs is left. -/
theorem expire_of_due {target : Float} (hf : f.state = .inFlight) {due : Float}
    (hm : due ∈ f.alarms) (hd : due ≤ target) :
    terms.expire c target f = terms.finish c "timeout" (terms.address c) f ∧
      terms.expire c target (terms.finish c "timeout" (terms.address c) f) =
        terms.finish c "timeout" (terms.address c) f := by
  have any : f.alarms.any (· ≤ target) = true :=
    List.any_eq_true.mpr ⟨due, hm, decide_eq_true hd⟩
  refine ⟨if_pos any, if_neg ?_⟩
  simp [finish, Facet.finish, hf]

end Terms

namespace Run

variable {terms : Terms} {F G : ChunkId → Facet → Facet} {r r' r'' : Run}

/-- Between two deeds: chunks are apart, and no call is under way. -/
structure Parted (terms : Terms) (r : Run) : Prop where
  apart : r.loader.Apart terms
  free : r.suspended = []

/-- Some moves lead from one such state to another; facets change as `F` says. -/
structure Goes (terms : Terms) (F : ChunkId → Facet → Facet) (r r' : Run) : Prop where
  shift : Loader.Shift terms F r.loader r'.loader
  free : r'.suspended = []

namespace Goes

theorem parted (g : Goes terms F r r') : Parted terms r' :=
  ⟨g.shift.apart, g.free⟩

theorem trans (g : Goes terms F r r') (g' : Goes terms G r' r'') :
    Goes terms (fun k f => G k (F k f)) r r'' :=
  ⟨g.shift.trans g'.shift, g'.free⟩

theorem congr (g : Goes terms F r r')
    (eq : ∀ k, k.isName = terms.named → F k (r.loader.facet k) = G k (r.loader.facet k)) :
    Goes terms G r r' :=
  ⟨g.shift.congr eq, g.free⟩

end Goes

namespace Parted

theorem idle (h : Parted terms r) : r.idle = true := by
  simp [Run.idle, h.free]

theorem refl (h : Parted terms r) : Goes terms (fun _ f => f) r r :=
  ⟨h.apart.refl, h.free⟩

theorem invoke (h : Parted terms r) {op : Operation}
    (ha : Loader.Answers terms F r.loader (r.loader.invoke op)) :
    Goes terms F r (r.step (.invoke op)) := by
  cases hop : r.loader.invoke op with
  | mk l asked =>
    rw [hop] at ha
    cases asked with
    | error f =>
      simp only [Run.step, hop]
      exact ⟨ha, h.free⟩
    | ok x =>
      simp only [Run.step, hop]
      change Loader.Comes terms F r.loader (l.drive x.2) at ha
      cases hd : l.drive x.2 with
      | mk l' progress =>
        rw [hd] at ha
        cases progress with
        | finished => exact ⟨ha, h.free⟩
        | raised f => exact ⟨ha, h.free⟩
        | calling call rest => exact ha.elim

/-- The watchdog that is due first fires, if there is one: its attempt ends. -/
theorem fire (h : Parted terms r) (target : Float) :
    (r.loader.nextDue? target = none ∧ r.step (.fire target) = r) ∨
    ∃ w t hid, w ∈ r.loader.watchdogs ∧ w.due ≤ target ∧ r.loader.Flight t w.attempt hid ∧
      (r.step (.fire target)).loader.watchdogs =
        r.loader.watchdogs.filter (·.attempt ≠ w.attempt) ∧
      Goes terms (fun k f =>
        (if k = t.chunk then terms.finish k "timeout" (terms.address k) f else f).clock w.due)
        r (r.step (.fire target)) := by
  cases hn : r.loader.fireNext? target with
  | none =>
    refine .inl ⟨?_, by simp only [Run.step, h.idle, hn]⟩
    simpa [Loader.fireNext?] using hn
  | some p =>
    obtain ⟨l, work⟩ := p
    obtain ⟨w, hw, ha, drive⟩ := h.apart.coupled.drive_fireNext? hn
    obtain ⟨hmem, hdue⟩ := Loader.nextDue?_mem hw
    obtain ⟨t, hid, f⟩ := h.apart.coupled.flight_of_active ha
    have c' : Loader.Coupled { r.loader with now := w.due } none none :=
      h.apart.coupled.congr rfl rfl rfl rfl rfl rfl rfl rfl
    have s' : Loader.Apart terms { r.loader with now := w.due } :=
      h.apart.congr c' rfl rfl rfl rfl (fun _ => Iff.rfl) (fun _ => rfl) (fun _ => id)
    have f' : Loader.Flight { r.loader with now := w.due } t w.attempt hid :=
      ⟨f.ticket, f.active, f.load⟩
    obtain ⟨l', hset, ended, shift⟩ :=
      s'.shift_settleLoad f' (r.loader.endSignal w.attempt "timeout")
    rw [hset] at drive
    have after : r.step (.fire target) = { r with loader := l' } := by
      simp [Run.step, h.idle, hn, drive, Run.after]
    have request : (r.loader.endSignal w.attempt "timeout").request = terms.address t.chunk := by
      obtain ⟨x, ⟨-, hx⟩, made, -⟩ := h.apart.handle_of_flight f
      simp [Loader.endSignal, f.load, Loader.sourceOf, hx, LoadEvent.request, Terms.address,
        made.url, Except.toOption]
    rw [after]
    refine .inr ⟨w, t, hid, hmem, hdue, f, ended.watchdogs, ⟨shift.apart, fun k hk => ?_⟩, h.free⟩
    have facet : Loader.facet { r.loader with now := w.due } k =
        (r.loader.facet k).clock w.due := rfl
    rw [shift.facet k hk, facet, request]
    split
    · rename_i heq
      rw [heq]
      exact Facet.finish_clock ..
    · rfl

/-- Watchdogs fire until none is due, if that is tried as often as there are any that are due. -/
theorem fires (target : Float) (n : Nat) (h : Parted terms r)
    (hn : (r.loader.watchdogs.filter (·.due ≤ target)).length ≤ n) :
    (r.steps (List.replicate n (.fire target))).loader.nextDue? target = none ∧
      ∃ now, Goes terms (fun k f => (terms.expire k target f).clock now) r
        (r.steps (List.replicate n (.fire target))) := by
  -- Where no watchdog is due, no facet has an alarm that is.
  have rested : ∀ {r : Run}, Parted terms r → r.loader.nextDue? target = none →
      Goes terms (fun k f => (terms.expire k target f).clock r.loader.now) r r := by
    intro r h hnone
    refine h.refl.congr fun k _ => ?_
    have none_due : ¬(r.loader.facet k).alarms.any (· ≤ target) = true := by
      intro hany
      obtain ⟨due, hm, hdue⟩ := List.any_eq_true.mp hany
      obtain ⟨w, hw, rfl⟩ := List.mem_map.mp hm
      have hmem : w ∈ r.loader.watchdogs.filter (·.due ≤ target) :=
        List.mem_filter.mpr ⟨(List.mem_filter.mp hw).1, hdue⟩
      rw [Loader.nextDue?_eq_none.mp hnone] at hmem
      cases hmem
    rw [Terms.expire, if_neg none_due]
    rfl
  induction n generalizing r with
  | zero =>
    have hnone : r.loader.nextDue? target = none :=
      Loader.nextDue?_eq_none.mpr (List.length_eq_zero_iff.mp (Nat.le_zero.mp hn))
    exact ⟨hnone, _, rested h hnone⟩
  | succ n ih =>
    rw [List.replicate_succ, steps_cons]
    rcases h.fire target with ⟨hnone, hstep⟩ | ⟨w, t, hid, hw, hdue, f, watchdogs, goes⟩
    · rw [hstep]
      refine ih h ?_
      rw [Loader.nextDue?_eq_none.mp hnone]
      exact Nat.zero_le n
    · have fewer : ((r.step (.fire target)).loader.watchdogs.filter (·.due ≤ target)).length <
          (r.loader.watchdogs.filter (·.due ≤ target)).length := by
        rw [watchdogs, List.filter_comm, List.length_filter_lt_length_iff_exists]
        exact ⟨w, List.mem_filter.mpr ⟨hw, decide_eq_true hdue⟩, by simp⟩
      obtain ⟨hnone, now, rest⟩ := ih goes.parted (by omega)
      refine ⟨hnone, now, (goes.trans rest).congr fun k hk => ?_⟩
      rw [Terms.expire_clock]
      by_cases heq : k = t.chunk
      · subst heq
        have flying : (r.loader.facet t.chunk).state = .inFlight :=
          Cache.state_eq_inFlight.mpr ⟨t, f.ticket⟩
        have alarm : w.due ∈ (r.loader.facet t.chunk).alarms :=
          Loader.mem_alarmsOf hw (by simp [f.load])
        obtain ⟨first, again⟩ := terms.expire_of_due t.chunk _ flying alarm hdue
        rw [if_pos rfl, again, first]
        rfl
      · rw [if_neg heq]
        rfl

/-! ## §3 Deeds -/

/-- What happens to one chunk, told of it or of whichever chunk one looks at. -/
theorem only_eq (F : ChunkId → Facet → Facet) (k k' : ChunkId) (f : Facet) :
    (if k' = k then F k f else f) = if k = k' then F k' f else f := by
  by_cases h : k = k'
  · rw [h]
  · rw [if_neg h, if_neg fun e => h e.symm]

/-- A chunk gets a final state. -/
theorem mark (h : Parted terms r) (k : ChunkId) (loaded : Bool) :
    Goes terms (fun k' f => terms.play k' f (.mark k loaded)) r (r.deed (.mark k loaded)) := by
  cases loaded with
  | true =>
    have marks : Loader.Answers terms _ r.loader (r.loader.invoke (.mark k .loaded)) :=
      h.apart.shift_mark k (e := .loaded) (by decide)
    exact (h.invoke marks).congr fun k' _ => only_eq (fun _ f => f.mark .loaded) k k' _
  | false =>
    have marks : Loader.Answers terms _ r.loader (r.loader.invoke (.mark k .skipped)) :=
      h.apart.shift_mark k (e := .skipped) (by decide)
    exact (h.invoke marks).congr fun k' _ => only_eq (fun _ f => f.mark .skipped) k k' _

/-- A handle of a chunk is the source of an outcome that is reported for the chunk. -/
theorem report (h : Parted terms r) {k : ChunkId} (hk : k.isName = terms.named) (type : String)
    (n : Nat) :
    Goes terms (fun k' f => terms.play k' f (.report k type (some n))) r
      (r.deed (.report k type (some n))) := by
  have count : (r.loader.facet k).registered.length = (r.loader.handlesOf k).length :=
    List.length_map ..
  cases hn : (r.loader.handlesOf k)[n]? with
  | none =>
    have still : r.deed (.report k type (some n)) = r := by
      simp [Run.deed, Deed.moves, hn, steps]
    rw [still]
    refine h.refl.congr fun k' _ => (if_neg ?_).symm
    rintro ⟨rfl, hlt⟩
    rw [count] at hlt
    exact absurd (List.getElem?_eq_none_iff.mp hn) (Nat.not_le.mpr hlt)
  | some hid =>
    obtain ⟨x, hx, made⟩ := h.apart.made_of_mem_handlesOf hk (List.mem_of_getElem? hn)
    have moves : r.deed (.report k type (some n)) =
        r.step (.invoke (.report k (r.loader.signalFrom hid type))) := by
      simp [Run.deed, Deed.moves, hn, steps]
    have request : (r.loader.signalFrom hid type).request = terms.address k := by
      rw [(terms.address_eq_some k).mpr made.url]
      simp [Loader.signalFrom, Loader.sourceOf, hx, LoadEvent.request]
    have hlt : n < (r.loader.facet k).registered.length := by
      rw [count]
      exact (List.getElem?_eq_some_iff.mp hn).1
    rw [moves]
    refine (h.invoke (h.apart.answers_report k _)).congr fun k' _ => ?_
    rw [request]
    by_cases heq : k' = k
    · subst heq
      exact (if_pos rfl).trans (if_pos ⟨rfl, hlt⟩).symm
    · exact (if_neg heq).trans (if_neg fun e => heq e.1.symm).symm

/-- A handle of a chunk gives a signal. -/
theorem dispatch (h : Parted terms r) {k : ChunkId} (hk : k.isName = terms.named) (n : Nat)
    (type : String) :
    Goes terms (fun k' f => terms.play k' f (.dispatch k n type)) r
      (r.deed (.dispatch k n type)) := by
  have registered : (r.loader.facet k).registered[n]? =
      (r.loader.handlesOf k)[n]?.map fun h => decide (h ∈ r.loader.registry.handles) :=
    List.getElem?_map ..
  cases hn : (r.loader.handlesOf k)[n]? with
  | none =>
    have still : r.deed (.dispatch k n type) = r := by simp [Run.deed, Deed.moves, hn, steps]
    rw [still]
    refine h.refl.congr fun k' _ => (if_neg ?_).symm
    rintro ⟨rfl, hreg⟩
    rw [registered, hn] at hreg
    cases hreg
  | some hid =>
    obtain ⟨x, hx, made⟩ := h.apart.made_of_mem_handlesOf hk (List.mem_of_getElem? hn)
    have moves : r.deed (.dispatch k n type) = r.step (.invoke (.dispatch hid type)) := by
      simp [Run.deed, Deed.moves, hn, steps]
    rw [moves]
    refine (h.invoke (h.apart.answers_dispatch hx made type)).congr fun k' _ => ?_
    by_cases heq : k' = k
    · subst heq
      simp [Terms.play, registered, hn]
    · exact (if_neg fun e => heq e.1).trans (if_neg fun e => heq e.1.symm).symm

/-- A promise that a request was answered with is cancelled. -/
theorem cancel (h : Parted terms r) (k : ChunkId) (n : Nat) :
    Goes terms (fun k' f => terms.play k' f (.cancel k n)) r (r.deed (.cancel k n)) := by
  have future : (r.loader.facet k).futures[n]? =
      (r.loader.answersTo k)[n]?.map r.loader.promises.outcome? :=
    List.getElem?_map ..
  cases hn : (r.loader.answersTo k)[n]? with
  | none =>
    have still : r.deed (.cancel k n) = r := by simp [Run.deed, Deed.moves, hn, steps]
    rw [still]
    refine h.refl.congr fun k' _ => ?_
    by_cases heq : k = k'
    · subst heq
      simp [Terms.play, Facet.cancel, future, hn]
    · exact (if_neg heq).symm
  | some p =>
    have moves : r.deed (.cancel k n) = r.step (.invoke (.cancelPromise p)) := by
      simp [Run.deed, Deed.moves, hn, steps]
    have cancels : Loader.Answers terms _ r.loader (r.loader.invoke (.cancelPromise p)) :=
      h.apart.shift_cancel hn
    rw [moves]
    exact (h.invoke cancels).congr fun k' _ => only_eq (fun _ f => f.cancel n) k k' _

/-- The active loads are looked at in another order. -/
theorem reorder (h : Parted terms r) (active : List AttemptId) :
    Goes terms (fun _ f => f) r (r.step (.reorder active)) := by
  by_cases hp : active.isPerm r.loader.active = true
  · have perm := List.isPerm_iff.mp hp
    simp only [Run.step, if_pos hp]
    exact ⟨h.apart.still (h.apart.coupled.reorder perm) rfl rfl rfl rfl rfl rfl rfl
      (fun _ => perm.mem_iff) rfl rfl rfl, h.free⟩
  · simp only [Run.step, if_neg hp]
    exact h.refl

/-- The clock is set. -/
theorem setClock (h : Parted terms r) (now : Float) :
    Goes terms (fun _ f => f.clock now) r (r.step (.setClock now)) := by
  have c : Loader.Coupled { r.loader with now } none none :=
    h.apart.coupled.congr rfl rfl rfl rfl rfl rfl rfl rfl
  simp only [Run.step, if_pos h.idle]
  exact ⟨⟨h.apart.congr c rfl rfl rfl rfl (fun _ => Iff.rfl) (fun _ => rfl) (fun _ => id),
    fun _ _ => rfl⟩, h.free⟩

/-- Time passes. -/
theorem advance (h : Parted terms r) (seconds : Float) :
    Goes terms (fun k f => terms.play k f (.advance seconds)) r (r.deed (.advance seconds)) := by
  obtain ⟨-, now, goes⟩ := h.fires (r.loader.now + seconds) r.loader.watchdogs.length
    (List.length_filter_le ..)
  have set := goes.parted.setClock (r.loader.now + seconds)
  show Goes _ _ _ (r.steps (List.replicate _ _ ++ [_]))
  rw [steps_concat]
  exact (goes.trans set).congr fun _ _ => rfl

/-- A deed changes the facet of each chunk as it would if there were no other chunk. -/
theorem deed (h : Parted terms r) {d : Deed} (hd : d.Of terms.named) :
    Goes terms (fun k f => terms.play k f d) r (r.deed d) := by
  cases d with
  | request k => exact (h.invoke (h.apart.answers_request hd)).congr fun k' _ => only_eq _ k k' _
  | mark k loaded => exact h.mark k loaded
  | report k type source =>
    cases source with
    | none =>
      exact (h.invoke (h.apart.answers_report k { type })).congr fun k' _ =>
        only_eq (fun k f => terms.finish k type none f) k k' _
    | some n => exact h.report hd type n
  | complete url type => exact h.invoke (h.apart.answers_complete url type)
  | dispatch k n type => exact h.dispatch hd n type
  | cancel k n => exact h.cancel k n
  | advance seconds => exact h.advance seconds
  | close => exact h.invoke h.apart.answers_close
  | reorder active => exact h.reorder active

/-! ## §4 Uses -/

/-- A loader that was just opened has nothing in which chunks could meet. -/
theorem opened (terms : Terms) {installed : List (ChunkId × String)} {cache : Cache}
    {sink : Metrics.Sink} (seeded : Cache.seed installed = .ok cache) (steady : sink.Steady) :
    Parted terms
      { loader := .whole terms.policy terms.resolve terms.hasAsset cache (.document [] 0) sink } := by
  obtain ⟨-, tickets, -⟩ := Cache.seed_spec seeded
  refine ⟨?_, rfl⟩
  exact
    { coupled := Loader.coupled_whole _ _ _ seeded _ steady
      plan := rfl
      kind := fun k t ht => by simp [Loader.whole, tickets] at ht
      distinct := fun k k' t t' ht => by simp [Loader.whole, tickets] at ht
      document := ⟨[], 0, rfl⟩
      tidy := ⟨List.nodup_nil, fun h hm => nomatch hm⟩
      made := fun h x hx => nomatch hx
      alone := fun a x ha => nomatch ha
      idle := fun h x hx => nomatch hx
      kept := fun h x k hx => nomatch hx.1 }

/--
Of two uses in which a chunk has the same facet, one may leave out what is done beside the chunk:
it is the same to look at after all that is left.
-/
theorem record_filter {c : ChunkId} (hc : c.isName = terms.named) {keeps : Deed → Bool}
    {deeds : List Deed} (of : ∀ d ∈ deeds, d.Of terms.named)
    (beside : ∀ d ∈ deeds, keeps d = false → d.Beside terms.resolve c) (h : Parted terms r)
    (h' : Parted terms r') (same : r.loader.facet c = r'.loader.facet c) :
    (r.record c deeds).filter (keeps ·.1) = r'.record c (deeds.filter keeps) := by
  induction deeds generalizing r r' with
  | nil => rfl
  | cons d ds ih =>
    have hd := of d List.mem_cons_self
    have of' : ∀ d ∈ ds, d.Of terms.named := fun d hm => of d (List.mem_cons_of_mem _ hm)
    have beside' : ∀ d ∈ ds, keeps d = false → d.Beside terms.resolve c :=
      fun d hm => beside d (List.mem_cons_of_mem _ hm)
    have g := h.deed hd
    have facet := g.shift.facet c hc
    cases hk : keeps d with
    | false =>
      rw [terms.play_beside c _ (beside d List.mem_cons_self hk)] at facet
      simp only [record, List.filter_cons, hk, Bool.false_eq_true, if_false]
      exact ih of' beside' g.parted h' (facet.trans same)
    | true =>
      have g' := h'.deed hd
      have facet' := g'.shift.facet c hc
      have next : (r.deed d).loader.facet c = (r'.deed d).loader.facet c := by
        rw [facet, facet', same]
      have view : (r.deed d).loader.view c = (r'.deed d).loader.view c :=
        congrArg Facet.toChunkView next
      simp only [record, List.filter_cons, hk, if_true, view]
      exact congrArg _ (ih of' beside' g.parted g'.parted next)

end Parted

/--
Chunks with different addresses are independent. Where a loader keeps its handles in a document,
its sink refuses no count, and all chunks are names or all are numbers, one can leave out of its
use what is done to other chunks: all that can be seen of a chunk is the same after each deed that
is left. The deeds may be any, in any order, and may look at the active loads in any order.
-/
theorem independent {policy : Policy} {resolve : ChunkId → Except Fault String}
    {hasAsset : ChunkId → Bool} {installed : List (ChunkId × String)} {cache : Cache}
    {sink : Metrics.Sink} {named : Bool} {c : ChunkId} {deeds : List Deed} {keeps : Deed → Bool}
    (distinct : ∀ k k' url, k.isName = named → k'.isName = named → resolve k = .ok url →
      resolve k' = .ok url → k = k')
    (seeded : Cache.seed installed = .ok cache) (steady : sink.Steady) (kind : c.isName = named)
    (of : ∀ d ∈ deeds, d.Of named)
    (beside : ∀ d ∈ deeds, keeps d = false → d.Beside resolve c) :
    let opened : Run :=
      { loader := .whole policy resolve hasAsset cache (.document [] 0) sink }
    (opened.record c deeds).filter (keeps ·.1) = opened.record c (deeds.filter keeps) := by
  intro opened
  have h := Parted.opened ⟨policy, resolve, hasAsset, named, distinct⟩ seeded steady
  exact h.record_filter kind of beside h rfl

/-- What can be seen of one name while another fails beside it. -/
theorem independent_of_neighbour :
    let a : ChunkId := .name "a"
    let b : ChunkId := .name "b"
    let keeps : Deed → Bool
      | .request k => k = a
      | .complete url _ => url = "a"
      | _ => true
    let opened : Run :=
      { loader := .whole {} (.ok ·.text) (fun _ => true) {} (.document [] 0) .silent }
    (opened.record a
        [.request a, .request b, .complete "b" "error", .cancel a 0, .request b,
          .complete "a" "load", .advance 30, .close]).filter (keeps ·.1) =
      opened.record a [.request a, .cancel a 0, .complete "a" "load", .advance 30, .close] := by
  intro a b keeps opened
  have distinct : ∀ k k' : ChunkId, ∀ url, k.isName = true → k'.isName = true →
      (Except.ok k.text : Except Fault String) = .ok url →
      (Except.ok k'.text : Except Fault String) = .ok url → k = k' := by
    intro k k' url hk hk' hr hr'
    exact ChunkId.eq_of_text (hk.trans hk'.symm)
      ((Except.ok.inj hr).trans (Except.ok.inj hr').symm)
  have seeded : Cache.seed [] = .ok {} := rfl
  have beside : ∀ d ∈ ([.request a, .request b, .complete "b" "error", .cancel a 0, .request b,
      .complete "a" "load", .advance 30, .close] : List Deed), keeps d = false →
      d.Beside (.ok ·.text) a := by
    simp [Deed.Beside, keeps, a, b, ChunkId.text]
  refine (independent distinct seeded Metrics.Sink.steady_silent rfl ?_ beside).trans ?_
  · simp [Deed.Of, a, b, ChunkId.isName]
  · exact congrArg (opened.record a) rfl

/-- Chunks with one address do meet: a chunk loses its handle when the other one fails. -/
example :
    let a : ChunkId := .name "a"
    let b : ChunkId := .name "b"
    let opened : Run :=
      { loader := .whole {} (fun _ => .ok "main.js") (fun _ => true) {} (.document [] 0) .silent }
    (opened.record a [.request a, .request b, .report b "error" none]).map (·.2.registered) =
      [[true], [true], [false]] := by
  rfl

end Run

end SingleFlight
