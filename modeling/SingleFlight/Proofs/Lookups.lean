/-
SingleFlight.Proofs.Lookups — both kinds of registry find the same handle.

A document looks for the first handle that has an address or a tag; a registry
keyed by address asks for the address first and for the tag only then. Of
arbitrary handles the two find different ones. But a load makes a handle only
when neither its address nor its tag is registered, and a chunk has one address
and one tag. So at most one registered handle can be meant, and it does not
matter who looks.

* `Registry.find?_eq_some_iff` — where at most one handle is meant, any
  registry that holds it finds it.
* `Loader.Filed` — registered handles have different addresses and different
  tags, and each was made for some chunk; `Act.filed` keeps it.
* `Run.lookups_agree` — what this comes to in all uses of a whole loader.

Tags tell chunks apart only among names, or among numbers: `1` and `"1"` have
the same tag.
-/
import Mathlib
import SingleFlight.Proofs.Acts
import SingleFlight.Proofs.Registered

namespace SingleFlight

/-! ## §1 Tags -/

/-- Whether an id is a name. -/
def ChunkId.isName : ChunkId → Bool
  | name _ => true
  | number _ => false

/-- Two names that read alike are one, and so are two numbers. -/
theorem ChunkId.eq_of_text {c c' : ChunkId} (hk : c.isName = c'.isName) (h : c.text = c'.text) :
    c = c' := by
  cases c with
  | name s =>
    cases c' with
    | name s' => exact congrArg name h
    | number n => cases hk
  | number n =>
    cases c' with
    | name s => cases hk
    | number n' => exact congrArg number (Int.repr_inj.mp h)

theorem Policy.tagFor_inj (p : Policy) {c c' : ChunkId} (hk : c.isName = c'.isName)
    (h : p.tagFor c = p.tagFor c') : c = c' :=
  ChunkId.eq_of_text hk ((String.append_right_inj _).mp h)

/-! ## §2 Registries that hold the same handles -/

/-- Where at most one member of a list has a property, it is the one that a search finds. -/
theorem find?_eq_some_iff_of_unique {α : Type} {p : α → Bool} {xs : List α}
    (unique : ∀ x ∈ xs, ∀ y ∈ xs, p x = true → p y = true → x = y) {x : α} :
    xs.find? p = some x ↔ x ∈ xs ∧ p x = true := by
  constructor
  · exact fun h => ⟨List.mem_of_find?_eq_some h, List.find?_some h⟩
  · rintro ⟨hx, hp⟩
    cases hf : xs.find? p with
    | none => exact absurd hp (List.find?_eq_none.mp hf x hx)
    | some y =>
      rw [unique y (List.mem_of_find?_eq_some hf) x hx (List.find?_some hf) hp]

namespace Registry

/-- The registry holds these handles and no others, by address under their own. -/
def Files (table : Table Handle) (held : List HandleId) : Registry → Prop
  | document hs _ => ∀ h, h ∈ hs ↔ h ∈ held
  | keyed entries _ => ∀ url h, (url, h) ∈ entries ↔ h ∈ held ∧ Has table h url

/-- A handle that is held, and has the address or the tag. -/
def Matching (table : Table Handle) (held : List HandleId) (url tag : String) (h : HandleId) :
    Prop :=
  h ∈ held ∧ ∃ x, table.get? h = some x ∧ (x.url = url ∨ x.tag = some tag)

variable {table : Table Handle} {held : List HandleId} {url tag : String} {r r' : Registry}

theorem Has.url_eq {h : HandleId} {x : Handle} (hh : Has table h url)
    (hx : table.get? h = some x) : x.url = url := by
  obtain ⟨y, hy, hurl⟩ := hh
  rw [hx] at hy
  cases hy
  exact hurl

/-- A registry in which every handle stands under its own address holds what it lists. -/
theorem Tidy.files (t : r.Tidy table) : r.Files table r.handles := by
  cases r with
  | document hs n => exact fun h => Iff.rfl
  | keyed entries client =>
    intro url h
    constructor
    · exact fun hm => ⟨List.mem_map.mpr ⟨(url, h), hm, rfl⟩, t.2 url h hm⟩
    · rintro ⟨hm, hh⟩
      obtain ⟨⟨url', h'⟩, hm', rfl⟩ := List.mem_map.mp hm
      obtain ⟨x, hx, rfl⟩ := hh
      rw [(t.2 url' h' hm').url_eq hx]
      exact hm'

/-- The same handles can be held by a registry of either kind. -/
theorem exists_files (r : Registry) (table : Table Handle) :
    (∃ hs n, (document hs n).Files table r.handles) ∧
      ∃ entries client, (keyed entries client).Files table r.handles := by
  refine ⟨⟨r.handles, 0, fun h => Iff.rfl⟩,
    ⟨r.handles.filterMap fun h => (table.get? h).map fun x => (x.url, h), {}, fun url h => ?_⟩⟩
  rw [List.mem_filterMap]
  constructor
  · rintro ⟨h', hm, hrow⟩
    obtain ⟨x, hx, heq⟩ := Option.map_eq_some_iff.mp hrow
    cases heq
    exact ⟨hm, x, hx, rfl⟩
  · rintro ⟨hm, x, hx, rfl⟩
    exact ⟨h, hm, by rw [hx]; rfl⟩

section Unique

variable (unique : ∀ h h', Matching table held url tag h → Matching table held url tag h' → h = h')

include unique

/-- The handle that is meant is found, in a document as by its address or tag. -/
theorem find?_eq_some_iff (hr : r.Files table held) {h : HandleId} :
    r.find? table url (some tag) = some h ↔ Matching table held url tag h := by
  have answers : ∀ h, (table.get? h).any (·.answers url (some tag)) = true ↔
      ∃ x, table.get? h = some x ∧ (x.url = url ∨ x.tag = some tag) := by
    intro h
    simp [Option.any_eq_true, Handle.answers]
  cases r with
  | document hs n =>
    simp only [find?, first?, handles]
    rw [find?_eq_some_iff_of_unique]
    · rw [hr h, answers]
      exact Iff.rfl
    · intro x hx y hy hpx hpy
      exact unique x y ⟨(hr x).mp hx, (answers x).mp hpx⟩ ⟨(hr y).mp hy, (answers y).mp hpy⟩
  | keyed entries client =>
    have mem : ∀ h, h ∈ (keyed entries client).handles ↔ h ∈ held ∧ ∃ url, Has table h url := by
      intro h
      constructor
      · intro hm
        obtain ⟨⟨url', h'⟩, hm', rfl⟩ := List.mem_map.mp hm
        exact ⟨((hr url' h').mp hm').1, url', ((hr url' h').mp hm').2⟩
      · rintro ⟨hm, url', hh⟩
        exact List.mem_map.mpr ⟨(url', h), (hr url' h).mpr ⟨hm, hh⟩, rfl⟩
    simp only [find?, first?, Option.isSome_some, if_true]
    cases hg : entries.get? url with
    | some h' =>
      obtain ⟨hm, x, hx, hurl⟩ := (hr url h').mp (Pairs.mem_of_get? hg)
      have found : Matching table held url tag h' := ⟨hm, x, hx, .inl hurl⟩
      constructor
      · intro hh
        cases hh
        exact found
      · exact fun hh => congrArg some (unique h' h found hh)
    | none =>
      -- No held handle has the address, so the one that is meant has the tag.
      have tagged : ∀ h, Matching table held url tag h →
          h ∈ (keyed entries client).handles ∧
            (table.get? h).any (·.tag == some tag) = true := by
        rintro h ⟨hm, x, hx, hurl | htag⟩
        · have hmem : (url, h) ∈ entries := (hr url h).mpr ⟨hm, x, hx, hurl⟩
          exact absurd hg (Pairs.get?_ne_none_of_mem hmem)
        · exact ⟨(mem h).mpr ⟨hm, x.url, x, hx, rfl⟩, by simp [hx, htag]⟩
      have back : ∀ h ∈ (keyed entries client).handles,
          (table.get? h).any (·.tag == some tag) = true → Matching table held url tag h := by
        intro h hm ht
        obtain ⟨x, hx, htag⟩ := Option.any_eq_true _ _ |>.mp ht
        exact ⟨((mem h).mp hm).1, x, hx, .inr (by simpa using htag)⟩
      dsimp only
      rw [find?_eq_some_iff_of_unique]
      · exact ⟨fun hh => back h hh.1 hh.2, tagged h⟩
      · intro x hx y hy hpx hpy
        exact unique x y (back x hx hpx) (back y hy hpy)

/-- Registries that hold the same handles find the same. -/
theorem find?_eq_find? (hr : r.Files table held) (hr' : r'.Files table held) :
    r.find? table url (some tag) = r'.find? table url (some tag) := by
  ext h
  rw [find?_eq_some_iff unique hr, find?_eq_some_iff unique hr']

end Unique

/-- Where nothing is found, no registered handle has the address or the tag. -/
theorem not_matching_of_find?_eq_none (t : r.Tidy table)
    (hf : r.find? table url (some tag) = none) (h : HandleId) :
    ¬Matching table r.handles url tag h := by
  rintro ⟨hm, x, hx, hxx⟩
  cases r with
  | document hs n =>
    have hno := List.find?_eq_none.mp hf h hm
    rcases hxx with hurl | htag
    · simp [hx, Handle.answers, hurl] at hno
    · simp [hx, Handle.answers, htag] at hno
  | keyed entries client =>
    simp only [find?, Option.isSome_some, if_true] at hf
    cases hg : entries.get? url with
    | some h' => simp [hg] at hf
    | none =>
      simp only [hg] at hf
      rcases hxx with hurl | htag
      · have hmem : (url, h) ∈ entries := (t.files url h).mpr ⟨hm, x, hx, hurl⟩
        exact Pairs.get?_ne_none_of_mem hmem hg
      · have hno := List.find?_eq_none.mp hf h hm
        simp [hx, htag] at hno

/-- Only the handle that is taken out goes. -/
theorem Tidy.mem_remove_of_ne (t : r.Tidy table) {h h' : HandleId} (hm : h' ∈ r.handles)
    (hne : h' ≠ h) : h' ∈ (r.remove h url).handles := by
  cases r with
  | document hs n => exact (List.mem_erase_of_ne hne).mpr hm
  | keyed entries client =>
    unfold Registry.remove
    dsimp only
    split
    · rename_i hg
      obtain ⟨⟨url', h''⟩, hp, rfl⟩ := List.mem_map.mp hm
      refine List.mem_map.mpr ⟨(url', h''), List.mem_filter.mpr ⟨hp, ?_⟩, rfl⟩
      have hurl : url' ≠ url := by
        rintro rfl
        rw [Pairs.get?_of_mem t.1 hp] at hg
        exact hne (Option.some.inj hg)
      simpa using hurl
    · exact hm

end Registry

/-! ## §3 The registry of a loader -/

/--
The moves in which handles come into the registry only through loads, and chunks keep the
addresses that they have.
-/
def Move.Unplanted (resolve : ChunkId → Except Fault String) : Move → Prop
  | .invoke (.plant _) => False
  | .invoke (.attach _) => False
  | .replan resolve' _ => resolve' = resolve
  | _ => True

namespace Loader

/-- A registered handle with what is known of it. -/
def Holds (l : Loader) (h : HandleId) (x : Handle) : Prop :=
  h ∈ l.registry.handles ∧ l.handles.get? h = some x

/-- A registered handle that has a chunk's tag or the address. -/
def Means (l : Loader) (chunk : ChunkId) (url : String) (h : HandleId) : Prop :=
  Registry.Matching l.handles l.registry.handles url (l.plan.policy.tagFor chunk) h

/-- Registered handles are apart, and each was made for a chunk of the given kind. -/
structure Filed (resolve : ChunkId → Except Fault String) (named : Bool) (l : Loader) : Prop where
  wired : l.plan.wiring = .fetch resolve
  tidy : l.registry.Tidy l.handles
  origin : ∀ h x, l.Holds h x → ∃ chunk, chunk.isName = named ∧ resolve chunk = .ok x.url ∧
    x.tag = some (l.plan.policy.tagFor chunk)
  apart : ∀ h h' x x', l.Holds h x → l.Holds h' x' → x.url = x'.url ∨ x.tag = x'.tag → h = h'

namespace Filed

variable {resolve : ChunkId → Except Fault String} {named : Bool} {l l' : Loader}

/-- No handle comes in, and those that are registered keep their address and tag. -/
theorem shrink (f : Filed resolve named l) (hw : l'.plan.wiring = l.plan.wiring)
    (hp : l'.plan.policy = l.plan.policy) (tidy : l'.registry.Tidy l'.handles)
    (back : ∀ h x', l'.Holds h x' → ∃ x, l.Holds h x ∧ x.url = x'.url ∧ x.tag = x'.tag) :
    Filed resolve named l' where
  wired := hw.trans f.wired
  tidy := tidy
  origin := by
    intro h x' hx'
    obtain ⟨x, hx, hurl, htag⟩ := back h x' hx'
    rw [hp, ← hurl, ← htag]
    exact f.origin h x hx
  apart := by
    intro h h' x x' hx hx' heq
    obtain ⟨y, hy, hurl, htag⟩ := back h x hx
    obtain ⟨y', hy', hurl', htag'⟩ := back h' x' hx'
    rw [← hurl, ← htag, ← hurl', ← htag'] at heq
    exact f.apart h h' y y' hy hy' heq

theorem congr (f : Filed resolve named l) (hw : l'.plan.wiring = l.plan.wiring)
    (hp : l'.plan.policy = l.plan.policy) (hh : l'.handles = l.handles)
    (hr : l'.registry = l.registry) : Filed resolve named l' := by
  refine f.shrink hw hp (by rw [hh, hr]; exact f.tidy) fun h x hx => ⟨x, ?_, rfl, rfl⟩
  unfold Holds at hx ⊢
  rw [← hh, ← hr]
  exact hx

theorem add (f : Filed resolve named l) (handle : Handle) :
    Filed resolve named { l with handles := l.handles.add handle } := by
  refine f.shrink rfl rfl (f.tidy.add handle) fun h x hx => ?_
  obtain ⟨y, hy⟩ := f.tidy.exists_of_mem hx.1
  have hxy := hx.2.symm.trans (Table.get?_add_of_some hy handle)
  cases hxy
  exact ⟨x, ⟨hx.1, hy⟩, rfl, rfl⟩

/-- A handle changes, but not its address nor its tag; others may leave the registry. -/
theorem update (f : Filed resolve named l) (h : HandleId) {g : Handle → Handle}
    (hg : ∀ x, (g x).url = x.url ∧ (g x).tag = x.tag) {registry : Registry}
    (tidy : registry.Tidy (l.handles.update h g))
    (sub : ∀ h, h ∈ registry.handles → h ∈ l.registry.handles) :
    Filed resolve named { l with handles := l.handles.update h g, registry } := by
  refine f.shrink rfl rfl tidy fun h' x' hx' => ?_
  obtain ⟨hm, hrow⟩ := hx'
  change (l.handles.update h g).get? h' = some x' at hrow
  rw [Table.get?_update] at hrow
  split at hrow
  · obtain ⟨x, hx, rfl⟩ := Option.map_eq_some_iff.mp hrow
    exact ⟨x, ⟨sub h' hm, hx⟩, (hg x).1.symm, (hg x).2.symm⟩
  · exact ⟨x', ⟨sub h' hm, hrow⟩, rfl, rfl⟩

theorem changeHandle (f : Filed resolve named l) (h : HandleId) {g : Handle → Handle}
    (hg : ∀ x, (g x).url = x.url ∧ (g x).tag = x.tag) :
    Filed resolve named (l.changeHandle h g) :=
  f.update h hg (f.tidy.update h fun x => (hg x).1) fun _ => id

theorem remove (f : Filed resolve named l) (h : HandleId) :
    Filed resolve named (l.remove h) := by
  unfold Loader.remove
  split
  · exact f
  · rename_i x hx
    exact f.shrink rfl rfl (f.tidy.remove h x.url) fun h' x' hx' =>
      ⟨x', ⟨Registry.mem_of_mem_remove hx'.1, hx'.2⟩, rfl, rfl⟩

theorem detach (f : Filed resolve named l) (a : AttemptId) (h : HandleId) (e : LoadEvent) :
    Filed resolve named (l.detach a h e) := by
  have released : Filed resolve named (l.changeHandle h (·.release)) :=
    f.changeHandle h fun _ => ⟨rfl, rfl⟩
  unfold Loader.detach
  dsimp only
  split
  · exact released.congr rfl rfl rfl rfl
  · have disarmed : Filed resolve named
        (({ l with attempts := l.attempts.update a ({ · with settled := true }) }.changeHandle h
          (·.release)).disarm a) := released.congr rfl rfl rfl rfl
    exact (disarmed.remove h).congr rfl rfl rfl rfl

/-- The handle that a load makes has an address and a tag that no other one has. -/
theorem attach (f : Filed resolve named l) {chunk : ChunkId} {url : String}
    (hk : chunk.isName = named) (hr : resolve chunk = .ok url)
    (hf : l.findHandle chunk url = none) :
    Filed resolve named
      { l with
        handles := l.handles.add (l.madeHandle chunk url)
        registry := l.registry.attach l.handles.size url } := by
  have hnew : (l.handles.add (l.madeHandle chunk url)).get? l.handles.size =
      some (l.madeHandle chunk url) := Table.get?_add_size ..
  have hurl : (l.madeHandle chunk url).url = url := rfl
  have htag : (l.madeHandle chunk url).tag = some (l.plan.policy.tagFor chunk) := rfl
  have mem : ∀ h, h ∈ (l.registry.attach l.handles.size url).handles ↔
      h ∈ l.registry.handles ∨ h = l.handles.size := by
    intro h
    rw [Registry.handles_attach hf, List.mem_append, List.mem_singleton]
  -- A handle that is registered now was registered before, or is the new one.
  have cases' : ∀ h x, Holds
      { l with
        handles := l.handles.add (l.madeHandle chunk url)
        registry := l.registry.attach l.handles.size url } h x →
      l.Holds h x ∨ h = l.handles.size ∧ x = l.madeHandle chunk url := by
    rintro h x ⟨hm, hx⟩
    rcases (mem h).mp hm with hm | rfl
    · obtain ⟨y, hy⟩ := f.tidy.exists_of_mem hm
      have hxy := hx.symm.trans (Table.get?_add_of_some hy _)
      cases hxy
      exact .inl ⟨hm, hy⟩
    · exact .inr ⟨rfl, Option.some.inj (hx.symm.trans hnew)⟩
  have old : ∀ h x, l.Holds h x → ¬(x.url = url ∨ x.tag = some (l.plan.policy.tagFor chunk)) :=
    fun h x hx hxx => Registry.not_matching_of_find?_eq_none f.tidy hf h ⟨hx.1, x, hx.2, hxx⟩
  refine
    { wired := f.wired
      tidy := ((f.tidy.add _).enter f.tidy.size_not_mem ⟨_, hnew, hurl⟩).1
      origin := fun h x hx => ?_
      apart := fun h h' x x' hx hx' heq => ?_ }
  · rcases cases' h x hx with hx | ⟨-, rfl⟩
    · exact f.origin h x hx
    · exact ⟨chunk, hk, hr, htag⟩
  · rcases cases' h x hx with hx | ⟨rfl, rfl⟩
    · rcases cases' h' x' hx' with hx' | ⟨rfl, rfl⟩
      · exact f.apart h h' x x' hx hx' heq
      · rw [hurl, htag] at heq
        exact absurd heq (old h x hx)
    · rcases cases' h' x' hx' with hx' | ⟨rfl, -⟩
      · rw [hurl, htag] at heq
        exact absurd (heq.imp Eq.symm Eq.symm) (old h' x' hx')
      · rfl

end Filed

variable {resolve : ChunkId → Except Fault String} {named : Bool} {l l' : Loader}

theorem Change.filed (h : Change (·.isName = named) l l') (f : Filed resolve named l) :
    Filed resolve named l' := by
  cases h with
  | kept h he ho =>
    obtain ⟨ready, hs⟩ := l.newPromise.1.settlePromise_eq l.newPromise.2 .ok
    rw [hs]
    exact f.congr rfl rfl rfl rfl
  | @abandoned t h =>
    unfold abandon
    split
    · exact f.congr rfl rfl rfl rfl
    · exact f
  | made chunk url => exact f.add _
  | @created resolve' t url hc ht hw hr hf fetches asks =>
    have hres : resolve' = resolve := Wiring.fetch.inj (hw.symm.trans f.wired)
    subst hres
    exact ((f.attach hc hr hf).changeHandle l.handles.size (g := (·.observe l.attempts.size))
      fun _ => ⟨rfl, rfl⟩).congr rfl rfl rfl rfl
  | @adopted t url h ht hf hl =>
    exact (f.changeHandle h (g := (·.observe l.attempts.size)) fun _ => ⟨rfl, rfl⟩).congr
      rfl rfl rfl rfl
  | @found t url h ht hf hl =>
    exact (f.changeHandle h (g := (·.release)) fun _ => ⟨rfl, rfl⟩).congr rfl rfl rfl rfl
  | @concluded a x ha hx e => exact f.detach a x.handle e
  | @settled t h e =>
    obtain ⟨ready, log, hs⟩ := l.settleEntry_eq t e
    rw [hs]
    exact f.congr rfl rfl rfl rfl
  | @aborted t h =>
    obtain ⟨o, ready, hs⟩ := l.abortEntry_eq t
    rw [hs]
    exact f.congr rfl rfl rfl rfl
  | _ => exact f.congr rfl rfl rfl rfl

theorem Act.filed {m : Move} (h : Act (·.isName = named) l m l') (hm : m.Unplanted resolve)
    (f : Filed resolve named l) : Filed resolve named l' := by
  have inner : ∀ {l₁ : Loader}, Inner l l₁ → Filed resolve named l₁ := by
    rintro l₁ ⟨_, _, _, rfl⟩
    exact f.congr rfl rfl rfl rfl
  cases h with
  | work h => exact h.filed f
  | spare handle hs => exact f.add handle
  | planted handle => exact hm.elim
  | attached h => exact hm.elim
  | removed h => exact f.remove h
  | assigned h hg => exact f.changeHandle h hg
  | unloaded fetches closings hr hj =>
    rcases hr with rfl | rfl
    · exact f.congr rfl rfl rfl rfl
    · exact f.shrink rfl rfl f.tidy.shut fun h x hx =>
        ⟨x, ⟨by rw [← l.registry.handles_shut]; exact hx.1, hx.2⟩, rfl, rfl⟩
  | cancelled p => exact inner (l.inner_cancelPromise p)
  | taskCancelled t => exact inner (l.inner_cancelTask t)
  | @told t p rest h => exact inner (l.inner_childSettled rest t p)
  | @woken t rest h => exact inner (l.inner_wakeTask rest t)
  | @awaited t chunks ps h hp => exact inner (l.inner_await t ps)
  | replanned resolve' hasAsset =>
    have hres : resolve' = resolve := hm
    subst hres
    refine f.congr ?_ rfl rfl rfl
    simp [Loader.replan, f.wired]
  | _ => exact f.congr rfl rfl rfl rfl

/-! ### Handles that leave the registry -/

/-- Since `l₀`, some load on the handle has ended. -/
def EndedOn (l₀ l : Loader) (h : HandleId) : Prop :=
  ∃ a x, l.attempts.get? a = some x ∧ x.settled = true ∧ x.handle = h ∧
    ∀ y, l₀.attempts.get? a = some y → y.settled = false

/-- What has become of loads and registered handles since `l₀`, in the course of a move. -/
structure Since (m : Move) (l₀ l : Loader) : Prop where
  settled : ∀ a y, l₀.attempts.get? a = some y → y.settled = true →
    ∃ x, l.attempts.get? a = some x ∧ x.settled = true
  left : ∀ h ∈ l₀.registry.handles,
    h ∈ l.registry.handles ∨ m = .invoke (.remove h) ∨ EndedOn l₀ l h

namespace Since

variable {m : Move} {l₀ : Loader}

theorem congr (s : Since m l₀ l) (hat : l'.attempts = l.attempts)
    (hr : l'.registry.handles = l.registry.handles) : Since m l₀ l' where
  settled := by rw [hat]; exact s.settled
  left := by unfold EndedOn; rw [hat, hr]; exact s.left

/-- A load begins, and maybe its handle is attached. -/
theorem begin (s : Since m l₀ l) {x : Attempt} (hat : l'.attempts = l.attempts.add x)
    (hr : ∀ h ∈ l.registry.handles, h ∈ l'.registry.handles) : Since m l₀ l' where
  settled := by
    intro a y hy hs
    obtain ⟨z, hz, hzs⟩ := s.settled a y hy hs
    exact ⟨z, by rw [hat]; exact Table.get?_add_of_some hz x, hzs⟩
  left := by
    intro h hm
    rcases s.left h hm with hm | hm | ⟨a, z, hz, hzs, hzh, hnew⟩
    · exact .inl (hr h hm)
    · exact .inr (.inl hm)
    · exact .inr (.inr ⟨a, z, by rw [hat]; exact Table.get?_add_of_some hz x, hzs, hzh, hnew⟩)

/-- A load ends, and its handle may leave. -/
theorem conclude (s : Since m l₀ l) {a : AttemptId} {x : Attempt}
    (ha : l.attempts.get? a = some x) (hx : x.settled = false)
    (hat : l'.attempts = l.attempts.update a ({ · with settled := true }))
    (hr : ∀ h ∈ l.registry.handles, h ≠ x.handle → h ∈ l'.registry.handles) : Since m l₀ l' := by
  have still : ∀ b z, l.attempts.get? b = some z → z.settled = true →
      l'.attempts.get? b = some z := by
    intro b z hz hzs
    rw [hat, Table.get?_update, if_neg]
    · exact hz
    · rintro rfl
      rw [ha] at hz
      cases hz
      rw [hx] at hzs
      cases hzs
  refine ⟨fun b y hy hs => ?_, fun h hm => ?_⟩
  · obtain ⟨z, hz, hzs⟩ := s.settled b y hy hs
    exact ⟨z, still b z hz hzs, hzs⟩
  · rcases s.left h hm with hm | hm | ⟨b, z, hz, hzs, hzh, hnew⟩
    · by_cases hh : h = x.handle
      · refine .inr (.inr ⟨a, { x with settled := true }, ?_, rfl, hh.symm, fun y hy => ?_⟩)
        · rw [hat, Table.get?_update, if_pos rfl, ha]
          rfl
        · rw [← Bool.not_eq_true]
          intro hs
          obtain ⟨z, hz, hzs⟩ := s.settled a y hy hs
          rw [ha] at hz
          cases hz
          rw [hx] at hzs
          cases hzs
      · exact .inl (hr h hm hh)
    · exact .inr (.inl hm)
    · exact .inr (.inr ⟨b, z, still b z hz hzs, hzs, hzh, hnew⟩)

end Since

/-- What is registered after the end of a load was registered before. -/
theorem mem_of_mem_registryAfter {l : Loader} {h h' : HandleId} {e : LoadEvent}
    (hm : h' ∈ (l.registryAfter h e).handles) : h' ∈ l.registry.handles := by
  unfold registryAfter at hm
  split at hm
  · exact hm
  · unfold remove at hm
    split at hm
    · exact hm
    · exact Registry.mem_of_mem_remove hm

theorem registryAfter_keeps (l : Loader) (t : l.registry.Tidy l.handles) {h h' : HandleId}
    (e : LoadEvent) (hm : h' ∈ l.registry.handles) (hne : h' ≠ h) :
    h' ∈ (l.registryAfter h e).handles := by
  unfold registryAfter
  split
  · exact hm
  · unfold remove
    split
    · exact hm
    · exact t.mem_remove_of_ne hm hne

theorem Change.since {asked : ChunkId → Prop} {m : Move} {l₀ : Loader} (h : Change asked l l')
    (t : l.registry.Tidy l.handles) (s : Since m l₀ l) : Since m l₀ l' := by
  cases h with
  | kept h he ho =>
    obtain ⟨ready, hs⟩ := l.newPromise.1.settlePromise_eq l.newPromise.2 .ok
    rw [hs]
    exact s.congr rfl rfl
  | @abandoned t h =>
    unfold abandon
    split
    · exact s.congr rfl rfl
    · exact s
  | created hc ht hw hr hf hb =>
    refine s.begin rfl fun h hm => ?_
    change h ∈ (l.registry.attach l.handles.size _).handles
    rw [Registry.handles_attach hf]
    exact List.mem_append_left _ hm
  | adopted ht hf hl => exact s.begin rfl fun _ => id
  | found ht hf hl => exact s.begin rfl fun _ => id
  | @concluded a x ha hx e =>
    rw [detach_eq]
    exact s.conclude ha hx rfl fun h hm hne => l.registryAfter_keeps t e hm hne
  | @settled t h e =>
    obtain ⟨ready, log, hs⟩ := l.settleEntry_eq t e
    rw [hs]
    exact s.congr rfl rfl
  | @aborted t h =>
    obtain ⟨o, ready, hs⟩ := l.abortEntry_eq t
    rw [hs]
    exact s.congr rfl rfl
  | _ => exact s.congr rfl rfl

theorem Act.since {m : Move} {l₀ : Loader} (h : Act (·.isName = named) l m l')
    (hm : m.Unplanted resolve) (f : Filed resolve named l) (s : Since m l₀ l) : Since m l₀ l' := by
  have inner : ∀ {l₁ : Loader}, Inner l l₁ → Since m l₀ l₁ := by
    rintro l₁ ⟨_, _, _, rfl⟩
    exact s.congr rfl rfl
  cases h with
  | work h => exact h.since f.tidy s
  | planted handle => exact hm.elim
  | attached h => exact hm.elim
  | removed h =>
    unfold remove
    split
    · exact s
    · refine ⟨s.settled, fun h' hmem => ?_⟩
      rcases s.left h' hmem with hin | hin | ended
      · by_cases hh : h' = h
        · exact .inr (.inl (hh ▸ rfl))
        · exact .inl (f.tidy.mem_remove_of_ne hin hh)
      · exact .inr (.inl hin)
      · exact .inr (.inr ended)
  | unloaded fetches closings hr hj =>
    rcases hr with rfl | rfl
    · exact s.congr rfl rfl
    · exact s.congr rfl l.registry.handles_shut
  | cancelled p => exact inner (l.inner_cancelPromise p)
  | taskCancelled t => exact inner (l.inner_cancelTask t)
  | @told t p rest h => exact inner (l.inner_childSettled rest t p)
  | @woken t rest h => exact inner (l.inner_wakeTask rest t)
  | @awaited t chunks ps h hp => exact inner (l.inner_await t ps)
  | _ => exact s.congr rfl rfl

/-! ## §4 Uses -/

/-- No two registered handles can be taken for each other, and all look-ups agree. -/
structure Unambiguous (resolve : ChunkId → Except Fault String) (named : Bool) (l : Loader) :
    Prop where
  distinct : ∀ h h' x x', l.Holds h x → l.Holds h' x' → h ≠ h' → x.url ≠ x'.url ∧ x.tag ≠ x'.tag
  one_match : ∀ chunk url, chunk.isName = named → resolve chunk = .ok url →
    ∀ h h', l.Means chunk url h → l.Means chunk url h' → h = h'
  /-- The registered handles could be held by a registry of either kind. -/
  both_kinds :
    (∃ hs n, (Registry.document hs n).Files l.handles l.registry.handles) ∧
      ∃ entries client, (Registry.keyed entries client).Files l.handles l.registry.handles
  /-- Whichever kind of registry holds them, the handle that it finds for a chunk is the same. -/
  same_find : ∀ chunk url, chunk.isName = named → resolve chunk = .ok url →
    ∀ r : Registry, r.Files l.handles l.registry.handles →
      r.find? l.handles url (some (l.plan.policy.tagFor chunk)) = l.findHandle chunk url
  /-- A handle that is attached by a load takes nobody's place. -/
  attach_keeps : ∀ chunk url, chunk.isName = named → resolve chunk = .ok url →
    l.findHandle chunk url = none →
      ∀ h, (l.registry.attach h url).handles = l.registry.handles ++ [h]

/-- A handle has the chunk's tag only if it was made for the chunk, at the chunk's address. -/
theorem Filed.url_of_means (f : Filed resolve named l) {chunk : ChunkId} {url : String}
    (hk : chunk.isName = named) (hr : resolve chunk = .ok url) {h : HandleId}
    (hm : l.Means chunk url h) : ∃ x, l.Holds h x ∧ x.url = url := by
  obtain ⟨hmem, x, hx, hurl | htag⟩ := hm
  · exact ⟨x, ⟨hmem, hx⟩, hurl⟩
  · obtain ⟨k, hkk, hkr, hkt⟩ := f.origin h x ⟨hmem, hx⟩
    have hchunk : k = chunk :=
      l.plan.policy.tagFor_inj (hkk.trans hk.symm) (Option.some.inj (hkt.symm.trans htag))
    subst hchunk
    exact ⟨x, ⟨hmem, hx⟩, Except.ok.inj (hkr.symm.trans hr)⟩

theorem Filed.unambiguous (f : Filed resolve named l) : l.Unambiguous resolve named := by
  have one : ∀ chunk url, chunk.isName = named → resolve chunk = .ok url →
      ∀ h h', l.Means chunk url h → l.Means chunk url h' → h = h' := by
    intro chunk url hk hr h h' hm hm'
    obtain ⟨x, hx, hurl⟩ := f.url_of_means hk hr hm
    obtain ⟨x', hx', hurl'⟩ := f.url_of_means hk hr hm'
    exact f.apart h h' x x' hx hx' (.inl (hurl.trans hurl'.symm))
  refine
    { distinct := fun h h' x x' hx hx' hne => ?_
      one_match := one
      both_kinds := l.registry.exists_files l.handles
      same_find := fun chunk url hk hr r' hr' =>
        Registry.find?_eq_find? (one chunk url hk hr) hr' f.tidy.files
      attach_keeps := fun chunk url hk hr hf h => Registry.handles_attach hf h }
  exact ⟨fun e => hne (f.apart h h' x x' hx hx' (.inl e)),
    fun e => hne (f.apart h h' x x' hx hx' (.inr e))⟩

end Loader

namespace Run

/--
Requests are for names alone, or for numbers alone, and handles come into the registry only through
loads. Then, whatever else is done to a whole loader, its registered handles cannot be mistaken for
each other, and they leave the registry only when they are taken out or a load on them ends.
-/
theorem lookups_agree {policy : Policy} {resolve : ChunkId → Except Fault String}
    {hasAsset : ChunkId → Bool} {installed : List (ChunkId × String)} {cache : Cache}
    {registry : Registry} {sink : Metrics.Sink} {named : Bool} {r : Run}
    (hc : Cache.seed installed = .ok cache) (he : registry.handles = [])
    (hr : Run.Reachable
      (fun _ m => m.Outer ∧ m.Asks (·.isName = named) ∧ m.Unplanted resolve)
      { loader := .whole policy resolve hasAsset cache registry sink } r) :
    r.loader.Unambiguous resolve named ∧
      ∀ m : Move, m.Outer → m.Asks (·.isName = named) → m.Unplanted resolve →
        ∀ h ∈ r.loader.registry.handles, h ∈ (r.step m).loader.registry.handles ∨
          m = .invoke (.remove h) ∨ Loader.EndedOn r.loader (r.step m).loader h := by
  have empty : ∀ h x, ¬Loader.Holds (.whole policy resolve hasAsset cache registry sink) h x := by
    rintro h x ⟨hm, -⟩
    change h ∈ registry.handles at hm
    rw [he] at hm
    cases hm
  have tidy : registry.Tidy {} := .of_empty he
  have filed : Loader.Filed resolve named (.whole policy resolve hasAsset cache registry sink) :=
    { wired := rfl
      tidy
      origin := fun h x hx => absurd hx (empty h x)
      apart := fun h h' x x' hx => absurd hx (empty h x) }
  obtain ⟨rested, f⟩ := Rested.of_reachable (fun _ _ h => ⟨h.1, h.2.1⟩)
    (fun _ _ hm _ _ _ ha f => ha.filed hm.2.2 f)
    (Rested.opened _ policy resolve hasAsset hc registry sink) filed hr
  refine ⟨f.unambiguous, fun m hm ha hu h hh => ?_⟩
  have start : Loader.Since m r.loader r.loader := ⟨fun a y hy hs => ⟨y, hy, hs⟩, fun h => .inl⟩
  have both := (rested.acts hm ha).1.keeps
    (fun l l' _ ha (i : Loader.Filed resolve named l ∧ Loader.Since m r.loader l) =>
      ⟨ha.filed hu i.1, ha.since hu i.1 i.2⟩) rested.whole ⟨f, start⟩
  exact both.2.left h hh

/--
Two chunks share an address and a handle; the handle fails and is registered no more, and a retry
makes a new one.
-/
theorem lookups_agree_after_retry :
    let opened : Run :=
      { loader := .whole {} (fun chunk => .ok (if chunk.text = "c" then "/c.css" else "/ab.css"))
          (fun _ => true) {} (.keyed [] {}) .silent }
    let r := opened.steps
      [.invoke (.request (.name "a")), .invoke (.request (.name "b")),
        .invoke (.request (.name "c")), .invoke (.dispatch 0 "error"),
        .invoke (.request (.name "b"))]
    r.loader.Unambiguous (fun chunk => .ok (if chunk.text = "c" then "/c.css" else "/ab.css"))
        true ∧
      r.loader.registry.handles = [1, 2] ∧
        r.loader.findHandle (.name "a") "/ab.css" = some 2 := by
  intro opened r
  have hc : Cache.seed [] = .ok {} := rfl
  have hr : Reachable
      (fun _ m => m.Outer ∧ m.Asks (·.isName = true) ∧
        m.Unplanted fun chunk => .ok (if chunk.text = "c" then "/c.css" else "/ab.css"))
      opened r := by
    refine Reachable.start.steps _ fun s m hm => ?_
    simp only [List.mem_cons, List.not_mem_nil, or_false] at hm
    rcases hm with rfl | rfl | rfl | rfl | rfl
    · exact ⟨trivial, rfl, trivial⟩
    · exact ⟨trivial, rfl, trivial⟩
    · exact ⟨trivial, rfl, trivial⟩
    · exact ⟨trivial, trivial, trivial⟩
    · exact ⟨trivial, rfl, trivial⟩
  exact ⟨(lookups_agree hc rfl hr).1, by decide, by decide⟩

end Run

end SingleFlight
