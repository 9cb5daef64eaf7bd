/-
SingleFlight.Proofs.Steady — sinks that refuse none of a loader's counts.

A loader counts three things, each under one name and one tag. A sink is steady
if it takes any such counts, however many it is given. Laws of a loader that
hold only while its sink refuses nothing name this as their hypothesis.

* `Metrics.Sink.Steady` — such a sink; `steady_silent` and `steady_tally` say
  that silence and a tally are.
* `Metrics.Collector.declare_of_free` — what can be declared.
* `Metrics.Declared.Own`, `SinkBackend.steady_create` — declared counters are
  steady where nobody else declares any, so every sink is when it is new.
* `Loader.count_steady` — counting in a loader whose sink is steady.
-/
import SingleFlight.Backend
import SingleFlight.Loader.Entries
import SingleFlight.Loader.Fetching

namespace SingleFlight

/-- The counters of a loader, each with the name of its tag. -/
def Loader.counters : List (String × String) :=
  [(Loader.requestsTotal, "result"), (Loader.handlesTotal, "mode"),
    (Loader.outcomesTotal, "outcome")]

namespace Metrics.Sink

/-- The sink takes these counts one after the other: names, and tags with their values. -/
def Takes : Sink → List (String × String × String) → Prop
  | _, [] => True
  | s, (name, tag) :: rest =>
    (s.add name (.whole 1) [tag]).2 = none ∧ (s.add name (.whole 1) [tag]).1.Takes rest

/-- The sink takes whatever a loader counts. -/
def Steady (s : Sink) : Prop :=
  ∀ counts, (∀ c ∈ counts, (c.1, c.2.1) ∈ Loader.counters) → s.Takes counts

theorem Steady.add {s : Sink} (h : s.Steady) (name key : String)
    (hc : (name, key) ∈ Loader.counters) (value : String) :
    (s.add name (.whole 1) [(key, value)]).2 = none ∧
      (s.add name (.whole 1) [(key, value)]).1.Steady := by
  have first : ∀ counts, (∀ c ∈ counts, (c.1, c.2.1) ∈ Loader.counters) →
      s.Takes ((name, key, value) :: counts) := by
    intro counts hcounts
    apply h
    intro c hmem
    rcases List.mem_cons.mp hmem with rfl | hmem
    · exact hc
    · exact hcounts c hmem
  exact ⟨(first [] (by simp)).1, fun counts hcounts => (first counts hcounts).2⟩

theorem add_declared (d : Declared Collector) (name : String) (amount : Amount) (tags : Tags) :
    (declared d).add name amount tags = (declared (d.add Collector.client name amount tags).1,
      (d.add Collector.client name amount tags).2) := rfl

theorem takes_silent : ∀ counts, silent.Takes counts
  | [] => trivial
  | _ :: rest => ⟨rfl, takes_silent rest⟩

theorem takes_tally : ∀ (t : Tally) counts, (tally t).Takes counts
  | _, [] => trivial
  | _, _ :: rest => ⟨rfl, takes_tally _ rest⟩

theorem steady_silent : silent.Steady :=
  fun counts _ => takes_silent counts

theorem steady_tally (t : Tally) : (tally t).Steady :=
  fun counts _ => takes_tally t counts

end Metrics.Sink

namespace Metrics

/-- A count under one tag is seen under that tag alone. -/
theorem Tally.get_add (t : Tally) (name name' : String) (tag tag' : String × String) (n : Int) :
    (t.add name n [tag]).get name' [tag'] =
      t.get name' [tag'] + if name' = name ∧ tag' = tag then n else 0 := by
  have alone : ∀ x : String × String, sortTags [x] = [x] := fun x => by simp [sortTags]
  rw [get, get, add, valueAt_addAt, alone, alone]
  simp

/-- A whole number that is not beyond all doubles can be counted. -/
theorem Amount.exists_count? {n : Int} (h : Double.ofNat? n.natAbs ≠ none) :
    ∃ count, (whole n).count? = .ok count := by
  unfold count?
  dsimp only
  split
  · exact ⟨_, rfl⟩
  · contradiction

/-- A declared counter can always be counted up by one. -/
theorem Declaration.count_one (m : Declaration) (values : List String) :
    (m.count values (.whole 1)).2 = none := by
  obtain ⟨n, hn⟩ := Amount.exists_count? (n := 1) (by decide +kernel)
  have positive : ¬(Amount.whole 1).isNegative = true := by decide
  unfold Declaration.count
  rw [if_neg positive, hn]

namespace Collector

variable {r : Collector} {c : CounterName} {m : Declaration} {labels : List String}

/-- A name whose series are all free is declared, with labels none of which is reserved. -/
theorem declare_of_free (r : Collector) (c : CounterName) (hname : c.name ≠ "")
    (hfamily : c.family ≠ "") (hlabels : ∀ label ∈ labels, isReserved label = false)
    (hfree : ∀ s ∈ seriesOf c.family, s ∉ r.series) :
    r.declare c labels =
      .ok (r.withCounter c ⟨labels, if labels.isEmpty then [([], some 0)] else []⟩) := by
  have free : (seriesOf c.family).filter r.series.contains = [] :=
    List.filter_eq_nil_iff.mpr fun s hs => by simpa using hfree s hs
  have usable : labels.find? isReserved = none :=
    List.find?_eq_none.mpr fun label hlabel => by simp [hlabels label hlabel]
  unfold declare
  simp only [free, usable, if_neg hname, if_neg hfamily, ne_eq, not_true_eq_false, if_false]

/-- A counter that is there changes in its place. -/
theorem keys_withCounter (hm : r.counters.get? c = some m) (m' : Declaration) :
    (r.withCounter c m').counters.keys = r.counters.keys := by
  have hmem : c ∈ r.counters.keys := List.mem_map.mpr ⟨(c, m), Pairs.mem_of_get? hm, rfl⟩
  rw [withCounter, Pairs.keys_put, if_pos hmem]

theorem exists_choose (r : Collector) (c : CounterName) (tags : Tags)
    (h : CounterClient.ownLabel ∉ tags.map (·.1)) :
    ∃ r', r.choose c tags = .ok r' ∧ r'.counters.keys = r.counters.keys := by
  unfold choose
  rw [if_neg (by simpa using h)]
  split
  · rename_i hm
    exact ⟨_, rfl, keys_withCounter hm _⟩
  · exact ⟨r, rfl, rfl⟩

theorem exists_inc_one (r : Collector) (c : CounterName) (tags : Tags) :
    ∃ r', r.inc c tags (.whole 1) = (r', none) ∧ r'.counters.keys = r.counters.keys := by
  unfold inc
  split
  · rename_i m hm
    have taken := m.count_one (tags.map (·.2))
    cases hcount : m.count (tags.map (·.2)) (.whole 1) with
    | mk m' refusal =>
      rw [hcount] at taken
      cases taken
      exact ⟨_, rfl, keys_withCounter hm m'⟩
  · exact ⟨r, rfl, rfl⟩

end Collector

namespace Declared

open Collector (seriesOf isReserved)

/-- Whatever is declared is a counter of a loader, with the one tag that it has there. -/
structure Own (d : Declared Collector) : Prop where
  space : d.space = ownSpace
  declared : ∀ p ∈ d.labels, p ∈ Loader.counters.map fun c => (c.1, [c.2])
  /-- Nobody else has declared anything. -/
  alone : ∀ c ∈ d.registry.counters.keys, c.space = ownSpace ∧ c.name ∈ d.labels.keys

variable {d : Declared Collector} {name key : String}

/-- The counters of a loader have no series in common. -/
theorem series_disjoint :
    ∀ c ∈ Loader.counters, ∀ c' ∈ Loader.counters, c.1 ≠ c'.1 →
      ∀ s ∈ seriesOf (CounterName.mk ownSpace c.1).family,
        s ∉ seriesOf (CounterName.mk ownSpace c'.1).family := by
  decide +kernel

/-- The names and tags of a loader's counters can be used. -/
theorem usable_counters :
    ∀ c ∈ Loader.counters, c.1 ≠ "" ∧ (CounterName.mk ownSpace c.1).family ≠ "" ∧
      isReserved c.2 = false ∧ c.2 ≠ CounterClient.ownLabel := by
  decide +kernel

/-- A counter has one tag. -/
theorem tag_eq_of_counters :
    ∀ c ∈ Loader.counters, ∀ c' ∈ Loader.counters, c.1 = c'.1 → c.2 = c'.2 := by
  decide

namespace Own

theorem withRegistry (h : d.Own) {registry : Collector}
    (hk : registry.counters.keys = d.registry.counters.keys) : Own { d with registry } where
  space := h.space
  declared := h.declared
  alone := fun c hc => h.alone c (hk ▸ hc)

/-- A counter of a loader whose name was not used yet can be declared. -/
theorem free (h : d.Own) (hc : (name, key) ∈ Loader.counters) (hnew : d.labels.get? name = none) :
    ∀ s ∈ seriesOf (CounterName.mk d.space name).family, s ∉ d.registry.series := by
  intro s hs hmem
  obtain ⟨⟨⟨space, other⟩, m⟩, hp, hs'⟩ := List.mem_flatMap.mp hmem
  obtain ⟨rfl, hother⟩ := h.alone _ (List.mem_map.mpr ⟨_, hp, rfl⟩)
  obtain ⟨p, hp', rfl⟩ := List.mem_map.mp hother
  obtain ⟨c, hc', heq⟩ := List.mem_map.mp (h.declared p hp')
  have hcp : c.1 = p.1 := congrArg Prod.fst heq
  have hne : name ≠ c.1 := by
    rw [hcp]
    exact bne_iff_ne.mp (List.lookup_eq_none_iff.mp hnew p hp')
  rw [h.space] at hs
  exact series_disjoint _ hc c hc' hne s hs (hcp ▸ hs')

/-- A counter of a loader is there, or can be declared. -/
theorem counter (h : d.Own) (hc : (name, key) ∈ Loader.counters) :
    ∃ d', d.counter Collector.client name [key] = .ok d' ∧ d'.Own := by
  unfold Declared.counter
  cases hl : d.labels.get? name with
  | some labels =>
    obtain ⟨c, hc', heq⟩ := List.mem_map.mp (h.declared _ (Pairs.mem_of_get? hl))
    obtain ⟨hname, hlabels⟩ := Prod.mk.inj heq
    have same : labels = [key] := by
      rw [← hlabels, tag_eq_of_counters _ hc' _ hc hname]
    exact ⟨d, if_pos same, h⟩
  | none =>
    obtain ⟨hname, hfamily, hlabel, -⟩ := usable_counters _ hc
    have usable : ∀ label ∈ [key], isReserved label = false := by simpa using hlabel
    have declares := d.registry.declare_of_free ⟨d.space, name⟩ hname (by rwa [h.space]) usable
      (h.free hc hl)
    simp only [Collector.client, declares]
    refine ⟨_, rfl, h.space, fun p hp => ?_, fun c hm => ?_⟩
    · rcases Pairs.mem_put hp with rfl | hp
      · exact List.mem_map.mpr ⟨_, hc, rfl⟩
      · exact h.declared p hp
    · obtain ⟨p, hp, rfl⟩ := List.mem_map.mp hm
      show p.1.space = ownSpace ∧ p.1.name ∈ (d.labels.put name [key]).keys
      rw [Pairs.keys_put]
      rcases Pairs.mem_put hp with rfl | hp
      · refine ⟨h.space, ?_⟩
        split
        · assumption
        · simp
      · obtain ⟨hspace, hmem⟩ := h.alone p.1 (List.mem_map.mpr ⟨p, hp, rfl⟩)
        refine ⟨hspace, ?_⟩
        split
        · exact hmem
        · exact List.mem_append_left _ hmem

theorem add (h : d.Own) (hc : (name, key) ∈ Loader.counters) (value : String) :
    (d.add Collector.client name (.whole 1) [(key, value)]).2 = none ∧
      (d.add Collector.client name (.whole 1) [(key, value)]).1.Own := by
  obtain ⟨d', hd, own⟩ := h.counter hc
  obtain ⟨-, -, -, hlabel⟩ := usable_counters _ hc
  obtain ⟨r, hchoose, hkeys⟩ := d'.registry.exists_choose ⟨d'.space, name⟩
    [(key, value)] (by simpa using fun e => hlabel e.symm)
  obtain ⟨r', hinc, hkeys'⟩ := r.exists_inc_one ⟨d'.space, name⟩ [(key, value)]
  have sorted : sortTags [(key, value)] = [(key, value)] := by simp [sortTags]
  have added : d.add Collector.client name (.whole 1) [(key, value)] =
      ({ d' with registry := r' }, none) := by
    unfold Declared.add
    rw [sorted]
    simp only [List.map_cons, List.map_nil, hd, List.isEmpty_cons, Bool.false_eq_true, if_false]
    simp only [Collector.client, hchoose, hinc]
  rw [added]
  exact ⟨rfl, own.withRegistry (hkeys'.trans hkeys)⟩

theorem takes (h : d.Own) {counts : List (String × String × String)}
    (hc : ∀ c ∈ counts, (c.1, c.2.1) ∈ Loader.counters) : (Sink.declared d).Takes counts := by
  induction counts generalizing d with
  | nil => trivial
  | cons c rest ih =>
    obtain ⟨taken, own⟩ := h.add (hc c List.mem_cons_self) c.2.2
    rw [Sink.Takes, Sink.add_declared]
    exact ⟨taken, ih own fun c hm => hc c (List.mem_cons_of_mem _ hm)⟩

theorem steady (h : d.Own) : (Sink.declared d).Steady :=
  fun _ => h.takes

end Own

end Declared

end Metrics

/-- A new sink of any kind is steady. -/
theorem SinkBackend.steady_create (b : SinkBackend) : b.create.Steady := by
  cases b with
  | silent => exact Metrics.Sink.steady_silent
  | tally => exact Metrics.Sink.steady_tally _
  | declared =>
    have own : Metrics.Declared.Own (.fresh Metrics.Collector.client Metrics.Declared.ownSpace) :=
      ⟨rfl, nofun, nofun⟩
    exact own.steady

namespace Loader

/-- A count touches the sink and nothing else, whether it is taken or not. -/
theorem count_eq (l : Loader) (name : String) (tag : String × String) :
    ∃ sink refusal, l.count name tag = ({ l with sink }, refusal) :=
  ⟨_, _, rfl⟩

/-- A steady sink refuses no count and stays steady. -/
theorem count_steady {l : Loader} (h : l.sink.Steady) (name key : String)
    (hc : (name, key) ∈ counters) (value : String) :
    ∃ sink : Metrics.Sink, sink.Steady ∧
      l.count name (key, value) = ({ l with sink }, none) := by
  obtain ⟨taken, steady⟩ := h.add name key hc value
  exact ⟨_, steady, by simp [count, taken]⟩

end Loader

end SingleFlight
