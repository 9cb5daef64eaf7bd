/-
SingleFlight.Proofs.Collecting — how a task gets its promises.

A task asks for its chunks one after the other, just as somebody outside would
who had no other business in between. Each request is answered with the promise
of an attempt in flight or with a kept one, or it is refused; the first refusal
ends the task. Whatever has been answered by then stays answered: no request
makes a promise fail.

* `Loader.Requested` — one request, from beginning to end; `Run.step_request`
  says that this is what an operation does.
* `Loader.Collected` — several requests in a row; `Whole.collect_cases` says
  what a task makes of them.
* `Loader.Held` — a promise that a request was answered with, in the course of
  any use without cancellations; `Held.fate` says how it can stand.
-/
import SingleFlight.Proofs.Absorbing
import SingleFlight.Proofs.Downloads

namespace SingleFlight

/-- Whether a promise has failed. -/
def Promises.rejected (ps : Promises) (p : PromiseId) : Bool :=
  match ps.outcome? p with
  | some (.failed _) => true
  | _ => false

namespace Promises

variable {ps ps' ps'' : Promises} {p : PromiseId}

theorem rejected_iff : ps.rejected p = true ↔ ∃ f, ps.outcome? p = some (.failed f) := by
  unfold rejected
  split
  · rename_i f hf
    exact ⟨fun _ => ⟨f, hf⟩, fun _ => rfl⟩
  · rename_i hne
    exact ⟨nofun, fun ⟨f, hf⟩ => absurd hf (hne f)⟩

theorem rejected_congr {q : PromiseId} (h : ps'.outcome? p = ps.outcome? q) :
    ps'.rejected p = ps.rejected q := by
  unfold rejected
  rw [h]

theorem rejected_of_isPending (h : ps.isPending p = true) : ps.rejected p = false := by
  unfold rejected
  rw [(isPending_iff.mp h).2]

/-- No promise fails. -/
def Unharmed (ps ps' : Promises) : Prop :=
  ∀ p, ps'.rejected p = true → ps.rejected p = true

theorem Unharmed.refl (ps : Promises) : Unharmed ps ps :=
  fun _ => id

theorem Unharmed.trans (h : Unharmed ps ps') (h' : Unharmed ps' ps'') : Unharmed ps ps'' :=
  fun p hp => h p (h' p hp)

/-- A promise that has not failed has not failed then. -/
theorem Unharmed.sound (h : Unharmed ps ps') (hp : ps.rejected p = false) :
    ps'.rejected p = false := by
  rw [← Bool.not_eq_true] at hp ⊢
  exact fun hr => hp (h p hr)

theorem Unharmed.of_eq (h : ps' = ps) : Unharmed ps ps' := by
  rw [h]
  exact .refl ps

theorem Unharmed.create (ps : Promises) : Unharmed ps ps.create.1 := by
  intro p hp
  rw [rejected_congr (outcome?_create ps p)] at hp
  exact hp

theorem Unharmed.keep (ps : Promises) (p : PromiseId) : Unharmed ps (ps.settle p .ok) := by
  intro q hq
  obtain ⟨f, hf⟩ := rejected_iff.mp hq
  rcases outcome?_settle_cases ps p q hf with hf | ⟨-, -, heq⟩
  · exact rejected_iff.mpr ⟨f, hf⟩
  · cases heq

end Promises

namespace Loader

variable {asked : ChunkId → Prop} {l l' l'' : Loader} {m : Move} {chunk : ChunkId} {p : PromiseId}

/-! ## §1 Requests do no harm -/

/-- No promise of a loader fails. -/
abbrev Unharmed (l l' : Loader) : Prop :=
  l.promises.Unharmed l'.promises

theorem unharmed_settlePromise (l : Loader) (p : PromiseId) :
    Unharmed l (l.settlePromise p .ok) := by
  obtain ⟨ready, h⟩ := l.settlePromise_eq p .ok
  rw [h]
  exact .keep _ _

theorem unharmed_serve (l : Loader) (chunk : ChunkId) : Unharmed l (l.serve chunk).1 := by
  unfold serve
  dsimp only
  split
  · obtain ⟨sink, refusal, hc⟩ := count_eq
      { l with cache := { l.cache with used := true }.join chunk _ } requestsTotal ("result", "join")
    rw [hc]
    cases refusal <;> exact .refl _
  · obtain ⟨sink, refusal, hc⟩ := count_eq { l with cache := { l.cache with used := true } }
      requestsTotal ("result", "hit")
    rw [hc]
    cases refusal with
    | some f => exact .refl _
    | none => exact (Promises.Unharmed.create _).trans (unharmed_settlePromise _ _)
  · obtain ⟨sink, refusal, hc⟩ := count_eq
      { l with
        cache := ({ l.cache with used := true }.begin chunk l.promises.create.2).1
        promises := l.promises.create.1 } requestsTotal ("result", "start")
    simp only [newPromise, Cache.begin] at hc ⊢
    rw [hc]
    cases refusal <;> exact .create _

theorem unharmed_request (l : Loader) (chunk : ChunkId) : Unharmed l (l.request chunk).1 := by
  unfold request
  split
  · exact .refl _
  · split
    · exact l.unharmed_serve chunk
    · exact (l.mark chunk .skipped).unharmed_serve chunk

theorem promises_load (l : Loader) (chunk : ChunkId) (url : String) (done : Done) :
    (l.load chunk url done).1.promises = l.promises := by
  obtain ⟨_, _, _, _, _, _, _, _, _, loaded⟩ := l.load_shape chunk url done
  rw [loaded]

/-- A load that is over because its handle is complete. -/
theorem unharmed_settleLoad {e : LoadEvent} (he : e.isLoad = true) (a : AttemptId) (l : Loader) :
    Unharmed l (l.settleLoad a e).1 := by
  unfold settleLoad signal
  split
  · exact .refl _
  · rename_i x hx
    split
    · exact .refl _
    · obtain ⟨sink, log, refusal, hcon⟩ := l.conclude_shape a x e
      rw [hcon, detach_eq]
      cases refusal with
      | some f => exact .refl _
      | none =>
        dsimp only
        split
        · unfold signal redeem
          dsimp only
          split
          · unfold settleEntry
            rw [if_pos he]
            exact unharmed_settlePromise _ _
          · exact .refl _
        · exact .refl _

theorem unharmed_start {resolve : ChunkId → Except Fault String} (l : Loader)
    (hw : l.plan.wiring = .fetch resolve) (t : Ticket) : Unharmed l (l.start t).1 := by
  have abandoned : ∀ l' : Loader, (l'.abandon t).promises = l'.promises := by
    intro l'
    unfold abandon
    split <;> rfl
  have loaded : ∀ {url : String} {l' : Loader} {answer : Except Fault (HandleId × Option AttemptId)},
      l.load t.chunk url (.redeem t) = (l', answer) → Unharmed l l' := by
    intro url l' answer hl
    have hp := l.promises_load t.chunk url (.redeem t)
    rw [hl] at hp
    exact .of_eq hp
  unfold start
  rw [hw]
  dsimp only
  unfold fetch
  split
  · exact .of_eq (abandoned l)
  · split
    · rename_i hl
      exact (loaded hl).trans (.of_eq (abandoned _))
    · rename_i hl
      exact loaded hl
    · rename_i l' h a hl
      have ended := unharmed_settleLoad (e := l'.signalFrom h "load") rfl a l'
      split
      · rename_i hs
        rw [hs] at ended
        exact ((loaded hl).trans ended).trans (.of_eq (abandoned _))
      · rename_i hs
        rw [hs] at ended
        exact (loaded hl).trans ended
      · rename_i hs
        rw [hs] at ended
        exact (loaded hl).trans ended

/-! ## §2 Promises that were handed out -/

/-- No promise was cancelled. -/
def Uncancelled (l : Loader) : Prop :=
  ∀ p, l.promises.outcome? p ≠ some .cancelled

/-- A request for the chunk was answered with the promise, which is only kept with the chunk. -/
structure Held (l : Loader) (chunk : ChunkId) (p : PromiseId) : Prop where
  handed : (chunk, p) ∈ l.handed
  final : l.promises.outcome? p = some .ok → l.Final chunk

/-- How a promise for a chunk can stand. -/
inductive Fate (l : Loader) (chunk : ChunkId) (p : PromiseId) : Prop
  /-- Its attempt is in flight. -/
  | loading {t : Ticket} (ht : l.cache.ticketOf? chunk = some t) (hp : t.promise = p)
      (hpending : l.promises.isPending p = true) : Fate l chunk p
  /-- It is kept, and the chunk is loaded or skipped. -/
  | kept (ho : l.promises.outcome? p = some .ok) (hf : l.Final chunk) : Fate l chunk p
  | rejected (f : LoadFailure) (ho : l.promises.outcome? p = some (.failed f)) : Fate l chunk p

theorem Held.fate (h : l.Held chunk p) (w : Whole asked l) (u : l.Uncancelled) :
    l.Fate chunk p := by
  cases hp : l.promises.isPending p with
  | true =>
    obtain ⟨t, ht, rfl⟩ := w.awaited chunk p h.handed hp
    exact .loading ht rfl hp
  | false =>
    obtain ⟨o, ho⟩ := Promises.exists_outcome? (w.bounded chunk p h.handed) hp
    cases o with
    | ok => exact .kept ho (h.final ho)
    | cancelled => exact absurd ho (u p)
    | failed f => exact .rejected f ho

/-- A chunk that is loaded or skipped stays what it is. -/
theorem Act.final (h : Act asked l m l') {e : Entry} (hf : l.cache.find? chunk = some e)
    (he : e.state ≠ .inFlight) : l'.cache.find? chunk = some e := by
  have idle : l.cache.ticketOf? chunk = none := by
    unfold Cache.ticketOf?
    rw [hf]
    cases e with
    | inFlight p => exact absurd rfl he
    | _ => rfl
  have barred : l.Barred chunk := ⟨idle, .inl (by rw [hf]; exact Option.some_ne_none e)⟩
  by_cases hm : m.KeepsAssets l.plan.hasAsset
  · exact (h.spares hm barred).entry e hf
  · cases h with
    | work h => exact (h.spares barred).entry e hf
    | spare => exact hf
    | assigned => exact hf
    | unloaded => exact hf
    | replanned => exact hf
    | _ => exact absurd trivial hm

theorem Act.held (h : Act asked l m l') (hm : ¬m.IsCancel) (w : Whole asked l)
    (hd : l.Held chunk p) : l'.Held chunk p where
  handed := h.onward.2 hd.handed
  final := by
    intro ho
    cases hp : l.promises.isPending p with
    | true =>
      have real := (h.course hm w (.refl l)).real chunk p .ok hd.handed hp ho
      exact ⟨.loaded, real.loaded rfl, nofun⟩
    | false =>
      obtain ⟨o, ho'⟩ := Promises.exists_outcome? (w.bounded chunk p hd.handed) hp
      rw [h.onward.1.keep p o ho'] at ho
      cases ho
      obtain ⟨e, hf, he⟩ := hd.final ho'
      exact ⟨e, h.final hf he, he⟩

theorem Act.uncancelled (h : Act asked l m l') (hm : ¬m.IsCancel) (w : Whole asked l)
    (u : l.Uncancelled) : l'.Uncancelled :=
  fun p ho => u p ((h.course hm w (.refl l)).cancelled p ho)

theorem Leads.held (h : Leads asked l l') (w : Whole asked l) (hd : l.Held chunk p) :
    l'.Held chunk p :=
  (h.acts .runJob).keeps (fun _ _ w ha hd => ha.held id w hd) w hd

theorem Leads.unsettled (h : Leads asked l l') (w : Whole asked l) (u : l.Unsettled) :
    l'.Unsettled :=
  (h.acts .runJob).keeps (fun _ _ w ha u => ha.unsettled id w u) w u

/-! ## §3 Requests, one after the other -/

/-- What a request comes to that nothing interrupts: a promise, or an error. -/
inductive Requested (l : Loader) (chunk : ChunkId) : Loader → Except Fault PromiseId → Prop
  | refused {l' : Loader} {f : Fault} (h : l.request chunk = (l', .error f)) :
      Requested l chunk l' (.error f)
  | answered {l' : Loader} {p : PromiseId} (h : l.request chunk = (l', .ok (p, none))) :
      Requested l chunk (l'.hand chunk p) (.ok p)
  | started {l₁ l' : Loader} {p : PromiseId} {t : Ticket}
      (h : l.request chunk = (l₁, .ok (p, some t))) (hs : l₁.start t = (l', .through)) :
      Requested l chunk (l'.hand chunk p) (.ok p)
  | failed {l₁ l' : Loader} {p : PromiseId} {t : Ticket} {f : Fault}
      (h : l.request chunk = (l₁, .ok (p, some t))) (hs : l₁.start t = (l', .fails f)) :
      Requested l chunk l' (.error f)

/-- Several requests in a row, all of which are answered. -/
inductive Collected : Loader → List ChunkId → List PromiseId → Loader → Prop
  | nil (l : Loader) : Collected l [] [] l
  | cons {l l₁ l' : Loader} {chunk : ChunkId} {chunks : List ChunkId} {p : PromiseId}
      {ps : List PromiseId} (h : l.Requested chunk l₁ (.ok p)) (hs : Collected l₁ chunks ps l') :
      Collected l (chunk :: chunks) (p :: ps) l'

/-- A promise that a request was just answered with has not failed. -/
theorem Granted.standing (h : l.Granted chunk p) (u : l.Unsettled) :
    (l.promises.outcome? p = some .ok → l.Final chunk) ∧ l.promises.rejected p = false := by
  rcases h.2 with ⟨t, ht, rfl⟩ | ⟨ho, hf⟩
  · have hp := u chunk t ht
    refine ⟨fun ho => ?_, Promises.rejected_of_isPending hp⟩
    rw [(Promises.isPending_iff.mp hp).2] at ho
    cases ho
  · refine ⟨fun _ => hf, ?_⟩
    unfold Promises.rejected
    rw [ho]

/-- What a request changes, and what it is answered with. -/
theorem Requested.spec {answer : Except Fault PromiseId} (h : l.Requested chunk l' answer)
    (w : Whole asked l) (hc : asked chunk) :
    Leads asked l l' ∧ Unharmed l l' ∧
      ∀ p, answer = .ok p → (chunk, p) ∈ l'.handed ∧ l'.Granted chunk p := by
  have unharmed : ∀ {l₁ : Loader} {a : Except Fault (PromiseId × Option Ticket)},
      l.request chunk = (l₁, a) → Unharmed l l₁ := by
    intro l₁ a hr
    have hu := l.unharmed_request chunk
    rw [hr] at hu
    exact hu
  have harmless : ∀ {l₁ l₂ : Loader} {t : Ticket} {flow : Flow}, Whole asked l₁ →
      l₁.start t = (l₂, flow) → Unharmed l₁ l₂ := by
    intro l₁ l₂ t flow w₁ hs
    obtain ⟨resolve, hw⟩ := w₁.wired
    have hu := l₁.unharmed_start hw t
    rw [hs] at hu
    exact hu
  have new : ∀ {l₁ : Loader} {p : PromiseId}, (chunk, p) ∈ (l₁.hand chunk p).handed :=
    List.mem_append_right _ (List.mem_singleton.mpr rfl)
  have lead := w.leads_request chunk
  cases h with
  | refused h =>
    rw [h] at lead
    rcases lead with ⟨l₁, f, hr, h₁⟩ | ⟨l₁, p, hr, -⟩ | ⟨l₁, t, hr, -⟩
    all_goals cases hr
    exact ⟨h₁, unharmed h, nofun⟩
  | @answered l₁ p h =>
    rw [h] at lead
    rcases lead with ⟨l₁, f, hr, h₁⟩ | ⟨l₁, p, hr, h₁, ho, granted⟩ | ⟨l₁, t, hr, -⟩
    all_goals cases hr
    have hu := unharmed h
    refine ⟨h₁.tail (.handed granted.due ho), hu, fun q hq => ?_⟩
    cases hq
    exact ⟨new, granted⟩
  | @started l₁ l₂ p t h hs =>
    rw [h] at lead
    rcases lead with ⟨l₁, f, hr, h₁⟩ | ⟨l₁, p, hr, -⟩ | ⟨l₁, t, hr, rfl, h₁, st⟩
    all_goals cases hr
    have w₁ := h₁.whole w
    obtain ⟨l₃, h₃, ⟨hs', granted⟩ | ⟨f, hs'⟩⟩ := w₁.leads_start hc st
    all_goals
      rw [hs] at hs'
      cases hs'
    have ho := h₃.grows.closed.trans st.opened
    have hu := (unharmed h).trans (harmless w₁ hs)
    refine ⟨(h₁.trans h₃).tail (.handed granted.due ho), hu, fun q hq => ?_⟩
    cases hq
    exact ⟨new, granted⟩
  | @failed l₁ l₂ p t f h hs =>
    rw [h] at lead
    rcases lead with ⟨l₁, f, hr, h₁⟩ | ⟨l₁, p, hr, -⟩ | ⟨l₁, t, hr, rfl, h₁, st⟩
    all_goals cases hr
    have w₁ := h₁.whole w
    obtain ⟨l₃, h₃, ⟨hs', -⟩ | ⟨f, hs'⟩⟩ := w₁.leads_start hc st
    all_goals
      rw [hs] at hs'
      cases hs'
    exact ⟨h₁.trans h₃, (unharmed h).trans (harmless w₁ hs), nofun⟩

/-- What several requests change, and what they are answered with: none of it has failed. -/
theorem Collected.spec {chunks : List ChunkId} {ps : List PromiseId}
    (h : Collected l chunks ps l') (w : Whole asked l) (u : l.Unsettled)
    (hc : ∀ chunk ∈ chunks, asked chunk) :
    Leads asked l l' ∧ List.Forall₂ l'.Held chunks ps ∧
      ∀ p ∈ ps, l'.promises.rejected p = false := by
  have all : Leads asked l l' ∧ Unharmed l l' ∧ List.Forall₂ l'.Held chunks ps ∧
      ∀ p ∈ ps, l'.promises.rejected p = false := by
    induction h with
    | nil l => exact ⟨.refl, .refl _, .nil, fun _ hp => absurd hp List.not_mem_nil⟩
    | @cons l l₁ l' chunk chunks p ps h hs ih =>
      obtain ⟨h₁, hu₁, answered⟩ := h.spec w (hc chunk (List.mem_cons_self ..))
      obtain ⟨handed, granted⟩ := answered p rfl
      have w₁ := h₁.whole w
      have u₁ := h₁.unsettled w u
      obtain ⟨final, standing⟩ := granted.standing u₁
      obtain ⟨h', hu', held, sound⟩ := ih w₁ u₁ fun k hk => hc k (List.mem_cons_of_mem _ hk)
      exact ⟨h₁.trans h', hu₁.trans hu', .cons (h'.held w₁ ⟨handed, final⟩) held,
        List.forall_mem_cons.mpr ⟨hu'.sound standing, sound⟩⟩
  exact ⟨all.1, all.2.2⟩

/-- A task that starts makes its requests one after the other, up to the first that is refused. -/
theorem Whole.collect_cases (t : TaskId) (chunks : List ChunkId) (got : List PromiseId)
    (w : Whole asked l) (hc : ∀ chunk ∈ chunks, asked chunk) :
    (∃ ps l', Collected l chunks ps l' ∧
      collect t got chunks l = (l'.await t (got ++ ps), .through)) ∨
      ∃ done chunk rest ps l₁ l₂ f, chunks = done ++ chunk :: rest ∧ Collected l done ps l₁ ∧
        l₁.Requested chunk l₂ (.error f) ∧
          collect t got chunks l = (l₂.endTask t (.fault f), .through) := by
  induction chunks generalizing l got with
  | nil => exact .inl ⟨[], l, .nil l, by simp [collect]⟩
  | cons chunk rest ih =>
    have refused : ∀ {l₂ : Loader} {f : Fault}, l.Requested chunk l₂ (.error f) →
        collect t got (chunk :: rest) l = (l₂.endTask t (.fault f), .through) →
        ∃ done k rest' ps l₁ l₂ f, chunk :: rest = done ++ k :: rest' ∧ Collected l done ps l₁ ∧
          l₁.Requested k l₂ (.error f) ∧
            collect t got (chunk :: rest) l = (l₂.endTask t (.fault f), .through) :=
      fun hr hcol => ⟨[], chunk, rest, [], l, _, _, rfl, .nil l, hr, hcol⟩
    -- Once the first request is answered, the task goes on with the others.
    have next : ∀ {l₁ : Loader} {p : PromiseId}, l.Requested chunk l₁ (.ok p) →
        collect t got (chunk :: rest) l = collect t (got ++ [p]) rest l₁ →
        (∃ ps l', Collected l (chunk :: rest) ps l' ∧
          collect t got (chunk :: rest) l = (l'.await t (got ++ ps), .through)) ∨
          ∃ done k rest' ps l₁ l₂ f, chunk :: rest = done ++ k :: rest' ∧ Collected l done ps l₁ ∧
            l₁.Requested k l₂ (.error f) ∧
              collect t got (chunk :: rest) l = (l₂.endTask t (.fault f), .through) := by
      intro l₁ p hr hcol
      have w₁ := (hr.spec w (hc chunk (List.mem_cons_self ..))).1.whole w
      rw [hcol]
      rcases ih (got ++ [p]) w₁ fun k hk => hc k (List.mem_cons_of_mem _ hk) with
        ⟨ps, l', hs, hcol'⟩ | ⟨done, k, rest', ps, l₂, l₃, f, rfl, hs, hr', hcol'⟩
      · refine .inl ⟨p :: ps, l', .cons hr hs, ?_⟩
        rw [hcol', List.append_assoc, List.singleton_append]
      · exact .inr ⟨chunk :: done, k, rest', p :: ps, l₂, l₃, f, rfl, .cons hr hs, hr', hcol'⟩
    rcases w.leads_request chunk with
      ⟨l₁, f, hr, -⟩ | ⟨l₁, p, hr, -⟩ | ⟨l₁, ticket, hr, rfl, h₁, st⟩
    · exact .inr (refused (.refused hr) (by simp only [collect, hr]))
    · exact next (.answered hr) (by simp only [collect, hr])
    · obtain ⟨l₂, -, ⟨hs, -⟩ | ⟨f, hs⟩⟩ :=
        (h₁.whole w).leads_start (hc _ (List.mem_cons_self ..)) st
      · exact next (.started hr hs) (by simp only [collect, hr, hs])
      · exact .inr (refused (.failed hr hs) (by simp only [collect, hr, hs]))

end Loader

/-- A request that is made from outside comes to the same. -/
theorem Run.step_request {r : Run} {chunk : ChunkId} {l : Loader} {answer : Except Fault PromiseId}
    (h : r.loader.Requested chunk l answer) :
    r.step (.invoke (.request chunk)) =
      { r with
        loader := l
        answers := r.answers ++ (answer.toOption.map Answer.promise).toList } := by
  cases h with
  | refused h => simp [step, Loader.invoke, h, Except.toOption]
  | answered h => simp [step, Loader.invoke, h, Loader.atOnce, Loader.drive, after, Except.toOption]
  | started h hs =>
    simp [step, Loader.invoke, h, Loader.drive, Loader.perform, hs, after, Except.toOption]
  | failed h hs =>
    simp [step, Loader.invoke, h, Loader.drive, Loader.perform, hs, Loader.unwind, after,
      Except.toOption]

end SingleFlight
