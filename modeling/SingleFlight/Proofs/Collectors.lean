/-
SingleFlight.Proofs.Collectors — the client that counts in doubles is lawful.

A collector keeps for each counter a table of samples by the values of their labels.
On its books these are all the samples by the names that they are published under. As
long as no two families have a series in common, a name says which counter a sample
is of; and as long as sums are doubles, adding them up is exact.

* `Double.add_of_exact`, `Declaration.count_exact` — counting without rounding.
* `not_mem_seriesOf` — families that are apart have no series in common.
* `Collector.Keeps` — what a collector has on its books; `Keeps.withCount` is one
  sample with another count.
* `Collector.lawful` — the laws.
-/
import SingleFlight.Proofs.Bookkeeping
import SingleFlight.Proofs.Steady

namespace SingleFlight

/-! ## §1 Exact counts -/

namespace Double

theorem exact_iff {n : Nat} : Exact n ↔ round n = n ∧ n < ceiling := by
  unfold Exact ofNat?
  split
  · rename_i h
    constructor
    · intro heq
      have hn : round n = n := Option.some.inj heq
      exact ⟨hn, hn ▸ h⟩
    · exact fun hn => congrArg some hn.1
  · rename_i h
    refine ⟨nofun, fun hn => ?_⟩
    rw [hn.1] at h
    exact absurd hn.2 h

/-- Whole numbers of at most 53 binary digits are doubles. -/
theorem Exact.of_lt {n : Nat} (h : n < twoTo 53) : Exact n := by
  have small : twoTo 53 ≤ ceiling := by decide +kernel
  exact exact_iff.mpr ⟨round_of_lt h, h.trans_le small⟩

/-- Where the sum is a double, doubles add up exactly. -/
theorem add_of_exact {a b : Nat} (h : Exact (a + b)) :
    add (a * one) (b * one) = (a + b) * one := by
  obtain ⟨hround, hlt⟩ := exact_iff.mp h
  have rounded : round ((a + b) * one) = (a + b) * one := by
    rw [one, round_mul_twoTo, hround]
  rw [add, nearest, ← Nat.add_mul, rounded, infinity]
  exact Nat.min_eq_left (Nat.mul_le_mul_right _ hlt.le)

end Double

namespace Metrics

theorem Amount.count?_of_exact {n : Nat} (h : Double.Exact n) :
    (Amount.whole n).count? = .ok (some (n * Double.one)) := by
  have hofNat : Double.ofNat? n = some n := h
  unfold count?
  dsimp only
  rw [Int.natAbs_natCast, hofNat]

/-- The whole number that a count stands for, if it is one. -/
def Count.value (count : Count) : Nat :=
  count.getD 0 / Double.one

theorem Count.value_mul_one (n : Nat) : Count.value (some (n * Double.one)) = n :=
  Nat.mul_div_cancel n (Double.twoTo_pos _)

theorem Count.whole?_of_exact {n : Nat} (h : Double.Exact n) :
    Count.whole? (some (n * Double.one)) = .ok (n : Int) := by
  have hlt : n * Double.one < Double.infinity :=
    Nat.mul_lt_mul_of_pos_right (Double.exact_iff.mp h).2 (Double.twoTo_pos _)
  have hdiv : n * Double.one / Double.one = n := Count.value_mul_one n
  simp only [Count.whole?, if_pos hlt, hdiv]

/-- A sample is counted up by exactly the amount. -/
theorem Declaration.count_exact {m : Declaration} {values : List String} {k n : Nat}
    (hm : m.countOf values = some (k * Double.one)) (hn : Double.Exact n)
    (hsum : Double.Exact (k + n)) :
    m.count values (.whole n) = (m.withCount values (some ((k + n) * Double.one)), none) := by
  have positive : (Amount.whole n).isNegative = false := by simp [Amount.isNegative]
  have sum : Count.add (some (k * Double.one)) (some (n * Double.one)) =
      some ((k + n) * Double.one) := congrArg some (Double.add_of_exact hsum)
  simp only [count, hm, positive, Amount.count?_of_exact hn, sum, Bool.false_eq_true, if_false]

theorem counted_le_sum (us : List Use) (key : String × Tags) :
    counted us key ≤ (us.map (·.amount)).sum :=
  (List.filter_sublist.map _).sum_le_sum fun _ _ => Nat.zero_le _

/-- Uses that come to less than 2^53 in all are counted exactly. -/
theorem Exact.of_sum_lt {us vs : List Use} (h : (vs.map (·.amount)).sum < Double.twoTo 53)
    (hsub : us.Sublist vs) : Exact us := by
  have below : ∀ ws : List Use, ws.Sublist us → (ws.map (·.amount)).sum < Double.twoTo 53 :=
    fun ws hws => ((hws.trans hsub).map _ |>.sum_le_sum fun _ _ => Nat.zero_le _).trans_lt h
  intro u hu
  refine ⟨.of_lt ?_, fun seen hseen => .of_lt ?_⟩
  · simpa using below [u] (List.singleton_sublist.mpr hu)
  · exact (counted_le_sum seen u.key).trans_lt (below seen hseen.sublist)

/-! ## §2 Families -/

namespace Collector

variable {r : Collector} {c c' : CounterName} {m : Declaration} {b : Books}

/-- Families that are apart have no series in common. -/
theorem not_mem_seriesOf {s : String} (h : c.Apart c') (h' : c'.Apart c)
    (hs : s ∈ seriesOf c.family) : s ∉ seriesOf c'.family := by
  -- The two suffixes end in different characters.
  have differ : ∀ a b : String, a ++ "_total" ≠ b ++ "_created" := by
    intro a b heq
    have last := congrArg (fun s : String => s.toList.getLast?) heq
    simp [List.getLast?_append] at last
  obtain ⟨hne, htotal, hcreated⟩ := h
  obtain ⟨-, htotal', hcreated'⟩ := h'
  simp only [seriesOf, List.mem_cons, List.not_mem_nil, or_false] at hs ⊢
  rcases hs with rfl | rfl | rfl
  · exact not_or.mpr ⟨hne, not_or.mpr ⟨htotal, hcreated⟩⟩
  · exact not_or.mpr ⟨htotal'.symm, not_or.mpr
      ⟨fun heq => hne ((String.append_left_inj _).mp heq), differ _ _⟩⟩
  · exact not_or.mpr ⟨hcreated'.symm, not_or.mpr
      ⟨(differ _ _).symm, fun heq => hne ((String.append_left_inj _).mp heq)⟩⟩

/-- The names of counters, with label names, that can be declared. -/
def Accepts (c : CounterName) (labels : List String) : Prop :=
  c.name ≠ "" ∧ c.family ≠ "" ∧ ∀ label ∈ labels, isReserved label = false

instance (c : CounterName) (labels : List String) : Decidable (Accepts c labels) :=
  inferInstanceAs (Decidable (_ ∧ _))

/-! ## §3 Books -/

/-- There is a sample, with this count. -/
def Sampled (r : Collector) (c : CounterName) (labels values : List String) (count : Count) :
    Prop :=
  ∃ m, r.counters.get? c = some m ∧ m.labels = labels ∧ m.samples.get? values = some count

/-- What a collector has on its books. -/
structure Keeps (r : Collector) (b : Books) : Prop where
  nodup : r.counters.keys.Nodup
  distinct : ∀ c m, r.counters.get? c = some m → m.samples.keys.Nodup
  labels : ∀ c, b.labels c = (r.counters.get? c).map (·.labels)
  /-- The name of a sample tells its counter. -/
  named : ∀ c c', b.labels c ≠ none → b.labels c' ≠ none → c.sampleName = c'.sampleName → c = c'
  /-- Samples have a value for each label, and have come to doubles. -/
  sound : ∀ c labels values count, r.Sampled c labels values count →
    values.length = labels.length ∧ ∃ k, Double.Exact k ∧ count = some (k * Double.one)
  count : ∀ key k, b.count key = some k ↔ ∃ c labels values,
    r.Sampled c labels values (some (k * Double.one)) ∧ (c.sampleName, labels.zip values) = key

variable {labels values labels' values' : List String} {count count' : Count}

/-- Below one counter, the values of the labels tell samples apart. -/
theorem values_inj (h : values.length = labels.length) (h' : values'.length = labels.length)
    (heq : labels.zip values = labels.zip values') : values = values' := by
  rw [← List.map_snd_zip h.le, heq, List.map_snd_zip h'.le]

theorem keeps_empty : Keeps {} {} where
  nodup := List.nodup_nil
  distinct _ _ h := nomatch h
  labels _ := rfl
  named _ _ h := absurd rfl h
  sound _ _ _ _ h := nomatch h
  count _ _ := ⟨nofun, fun ⟨_, _, _, h, _⟩ => nomatch h⟩

/-- Of the samples of a registry in which one has another count, only that one is new. -/
theorem sampled_withCount (hm : r.counters.get? c = some m) :
    (r.withCounter c (m.withCount values count)).Sampled c' labels' values' count' ↔
      if c' = c ∧ values' = values then labels' = m.labels ∧ count' = count
      else r.Sampled c' labels' values' count' := by
  unfold Sampled
  simp only [withCounter, Pairs.get?_put]
  by_cases hc : c' = c
  · subst hc
    simp only [if_true, Option.some.injEq, exists_eq_left', Declaration.withCount, Pairs.get?_put,
      true_and, hm]
    by_cases hv : values' = values
    · simp [hv, eq_comm]
    · simp [hv]
  · simp [hc]

/-- Where all counts are whole numbers, the samples are the entries. -/
theorem samples_eq
    (h : ∀ e ∈ r.entries, ∃ n, Double.Exact n ∧ e.2 = some (n * Double.one)) :
    r.samples = .ok (r.entries.map fun e => (e.1, (e.2.value : Int))) := by
  unfold samples
  generalize r.entries = es at h
  induction es with
  | nil => rfl
  | cons e es ih =>
    obtain ⟨key, count⟩ := e
    obtain ⟨n, hn, hcount⟩ := h _ List.mem_cons_self
    dsimp only at hcount
    have whole : count.whole? = .ok (count.value : Int) := by
      rw [hcount, Count.whole?_of_exact hn, Count.value_mul_one]
    rw [List.mapM_cons, ih fun e he => h e (List.mem_cons_of_mem _ he)]
    dsimp only
    rw [whole]
    rfl

namespace Keeps

theorem exists_of_labels (i : Keeps r b) (h : b.labels c = some labels) :
    ∃ m, r.counters.get? c = some m ∧ m.labels = labels := by
  rw [i.labels] at h
  exact Option.map_eq_some_iff.mp h

theorem labels_of_get? (i : Keeps r b) (hm : r.counters.get? c = some m) :
    b.labels c = some m.labels := by
  rw [i.labels, hm]
  rfl

theorem labels_of_sampled (i : Keeps r b) (h : r.Sampled c labels values count) :
    b.labels c = some labels := by
  obtain ⟨m, hm, rfl, -⟩ := h
  exact i.labels_of_get? hm

/-- The key of a sample tells all there is to it. -/
theorem key_inj (i : Keeps r b) (hl : b.labels c = some labels)
    (hv : values.length = labels.length) (h : r.Sampled c' labels' values' count)
    (heq : (c'.sampleName, labels'.zip values') = (c.sampleName, labels.zip values)) :
    c' = c ∧ labels' = labels ∧ values' = values := by
  obtain ⟨hname, hzip⟩ := Prod.mk.inj heq
  have hl' := i.labels_of_sampled h
  obtain rfl := i.named c' c (by simp [hl']) (by simp [hl]) hname
  obtain rfl := Option.some.inj (hl'.symm.trans hl)
  exact ⟨rfl, rfl, values_inj (i.sound _ _ _ _ h).1 hv hzip⟩

/-- What is on the books under the key of a sample is its count. -/
theorem countOf (i : Keeps r b) (hm : r.counters.get? c = some m)
    (hv : values.length = m.labels.length) :
    m.countOf values =
      some ((b.count (c.sampleName, m.labels.zip values)).getD 0 * Double.one) := by
  have hl := i.labels_of_get? hm
  unfold Declaration.countOf
  cases hs : m.samples.get? values with
  | some count =>
    have sampled : r.Sampled c m.labels values count := ⟨m, hm, rfl, hs⟩
    obtain ⟨-, k, -, rfl⟩ := i.sound _ _ _ _ sampled
    rw [(i.count _ k).mpr ⟨c, _, _, sampled, rfl⟩]
    rfl
  | none =>
    have missing : b.count (c.sampleName, m.labels.zip values) = none := by
      rw [Option.eq_none_iff_forall_ne_some]
      intro k hk
      obtain ⟨c', labels', values', sampled, hkey⟩ := (i.count _ k).mp hk
      obtain ⟨rfl, rfl, rfl⟩ := i.key_inj hl hv sampled hkey
      obtain ⟨m', hm', -, hs'⟩ := sampled
      cases hm.symm.trans hm'
      rw [hs] at hs'
      cases hs'
    rw [missing, Option.getD_none, Option.getD_none, Nat.zero_mul]

/-- Under the key of a sample there is that sample alone. -/
theorem sampled_self (i : Keeps r b) (hm : r.counters.get? c = some m)
    (hv : values.length = m.labels.length) {k n : Nat} :
    (∃ c' labels' values', (r.withCounter c (m.withCount values (some (k * Double.one)))).Sampled
        c' labels' values' (some (n * Double.one)) ∧
      (c'.sampleName, labels'.zip values') = (c.sampleName, m.labels.zip values)) ↔ k = n := by
  have hl := i.labels_of_get? hm
  simp only [sampled_withCount hm]
  constructor
  · rintro ⟨c', labels', values', h, heq⟩
    split at h
    · exact Nat.eq_of_mul_eq_mul_right (Double.twoTo_pos _) (Option.some.inj h.2).symm
    · rename_i hne
      obtain ⟨rfl, rfl, rfl⟩ := i.key_inj hl hv h heq
      exact absurd ⟨rfl, rfl⟩ hne
  · rintro rfl
    exact ⟨c, m.labels, values, by simp, rfl⟩

/-- Under any other key nothing is new. -/
theorem sampled_other (i : Keeps r b) (hm : r.counters.get? c = some m)
    (hne : (c'.sampleName, labels'.zip values') ≠ (c.sampleName, m.labels.zip values)) :
    (r.withCounter c (m.withCount values count)).Sampled c' labels' values' count' ↔
      r.Sampled c' labels' values' count' := by
  have hl := i.labels_of_get? hm
  rw [sampled_withCount hm]
  split
  · rename_i heq
    obtain ⟨rfl, rfl⟩ := heq
    constructor
    · rintro ⟨rfl, -⟩
      exact absurd rfl hne
    · intro h
      cases (i.labels_of_sampled h).symm.trans hl
      exact absurd rfl hne
  · exact Iff.rfl

/-- One sample has another count. -/
theorem withCount (i : Keeps r b) (hm : r.counters.get? c = some m)
    (hv : values.length = m.labels.length) {k : Nat} (hk : Double.Exact k) :
    Keeps (r.withCounter c (m.withCount values (some (k * Double.one))))
      { b with count := Function.update b.count (c.sampleName, m.labels.zip values) (some k) } := by
  refine
    { nodup := Pairs.nodup_keys_put i.nodup _ _
      distinct := fun c' m' hm' => ?_
      labels := fun c' => ?_
      named := i.named
      sound := fun c' labels' values' count' h => ?_
      count := fun key n => ?_ }
  · rw [withCounter, Pairs.get?_put] at hm'
    split at hm'
    · cases hm'
      exact Pairs.nodup_keys_put (i.distinct c m hm) _ _
    · exact i.distinct c' m' hm'
  · rw [i.labels, withCounter, Pairs.get?_put]
    split
    · rename_i hc
      rw [hc, hm]
      rfl
    · rfl
  · rw [sampled_withCount hm] at h
    split at h
    · rename_i heq
      obtain ⟨rfl, rfl⟩ := h
      exact ⟨heq.2 ▸ hv, k, hk, rfl⟩
    · exact i.sound c' labels' values' count' h
  · dsimp only
    by_cases hkey : key = (c.sampleName, m.labels.zip values)
    · subst hkey
      rw [Function.update_self, Option.some_inj]
      exact (i.sampled_self hm hv).symm
    · rw [Function.update_of_ne hkey, i.count]
      refine exists_congr fun c' => exists_congr fun labels' => exists_congr fun values' => ?_
      refine and_congr_left fun heq => (i.sampled_other hm ?_).symm
      rw [heq]
      exact hkey

/-- A counter that is new has no samples in the beginning. -/
theorem declare (i : Keeps r b) (new : b.labels c = none)
    (apart : ∀ c', b.labels c' ≠ none → c.Apart c' ∧ c'.Apart c) (labels : List String) :
    Keeps (r.withCounter c ⟨labels, []⟩)
      { b with labels := Function.update b.labels c (some labels) } := by
  have sampled : ∀ c' labels' values count,
      (r.withCounter c ⟨labels, []⟩).Sampled c' labels' values count ↔
        r.Sampled c' labels' values count := by
    intro c' labels' values count
    by_cases hc : c' = c
    · subst hc
      have unknown : r.counters.get? c' = none := by
        rw [i.labels] at new
        exact Option.map_eq_none_iff.mp new
      simp [Sampled, withCounter, Pairs.get?_put, unknown]
    · simp [Sampled, withCounter, Pairs.get?_put, hc]
  refine
    { nodup := Pairs.nodup_keys_put i.nodup _ _
      distinct := fun c' m' hm' => ?_
      labels := fun c' => ?_
      named := fun c₁ c₂ h₁ h₂ hname => ?_
      sound := fun c' labels' values count h => i.sound c' labels' values count ((sampled ..).mp h)
      count := fun key k => by simp only [sampled, i.count] }
  · rw [withCounter, Pairs.get?_put] at hm'
    split at hm'
    · cases hm'
      exact List.nodup_nil
    · exact i.distinct c' m' hm'
  · dsimp only
    rw [withCounter, Pairs.get?_put, Function.update_apply]
    split
    · rfl
    · exact i.labels c'
  · have families : c₁.family = c₂.family := (String.append_left_inj _).mp hname
    dsimp only at h₁ h₂
    by_contra hne
    by_cases hc₁ : c₁ = c
    · rw [Function.update_of_ne (hc₁ ▸ Ne.symm hne)] at h₂
      exact (apart c₂ h₂).1.1 (hc₁ ▸ families)
    · rw [Function.update_of_ne hc₁] at h₁
      by_cases hc₂ : c₂ = c
      · exact (apart c₁ h₁).2.1 (hc₂ ▸ families)
      · rw [Function.update_of_ne hc₂] at h₂
        exact hne (i.named c₁ c₂ h₁ h₂ hname)

/-- The series of a counter that is apart from all others are free. -/
theorem free (i : Keeps r b) (apart : ∀ c', b.labels c' ≠ none → c.Apart c' ∧ c'.Apart c) :
    ∀ s ∈ seriesOf c.family, s ∉ r.series := by
  intro s hs hmem
  obtain ⟨⟨c', m⟩, hm, hs'⟩ := List.mem_flatMap.mp hmem
  have there : b.labels c' ≠ none := by simp [i.labels_of_get? (Pairs.get?_of_mem i.nodup hm)]
  exact not_mem_seriesOf (apart c' there).1 (apart c' there).2 hs hs'

/-! ## §4 Samples -/

theorem mem_entries (i : Keeps r b) {key : String × Tags} :
    (key, count) ∈ r.entries ↔
      ∃ c labels values, r.Sampled c labels values count ∧
        (c.sampleName, labels.zip values) = key := by
  simp only [entries, List.mem_flatMap, List.mem_map]
  constructor
  · rintro ⟨⟨c, m⟩, hm, ⟨values, count'⟩, hmem, heq⟩
    have hget := Pairs.get?_of_mem i.nodup hm
    obtain ⟨rfl, rfl⟩ := Prod.mk.inj heq
    exact ⟨c, m.labels, values, ⟨m, hget, rfl, Pairs.get?_of_mem (i.distinct c m hget) hmem⟩, rfl⟩
  · rintro ⟨c, labels, values, ⟨m, hm, rfl, hs⟩, rfl⟩
    exact ⟨(c, m), Pairs.mem_of_get? hm, (values, count), Pairs.mem_of_get? hs, rfl⟩

/-- Below one counter, no sample is published twice. -/
theorem nodup_published (i : Keeps r b) (hm : r.counters.get? c = some m) :
    (m.samples.keys.map fun values => (c.sampleName, m.labels.zip values)).Nodup := by
  have length : ∀ values ∈ m.samples.keys, values.length = m.labels.length := by
    intro values hvalues
    obtain ⟨⟨values', count⟩, hmem, rfl⟩ := List.mem_map.mp hvalues
    exact (i.sound c _ _ count ⟨m, hm, rfl, Pairs.get?_of_mem (i.distinct c m hm) hmem⟩).1
  exact List.Nodup.map_on (fun a ha b hb heq =>
    values_inj (length a ha) (length b hb) (Prod.mk.inj heq).2) (i.distinct c m hm)

/-- No sample is published twice. -/
theorem nodup_entries (i : Keeps r b) : (r.entries.map (·.1)).Nodup := by
  have keyed : ∀ q : CounterName × Declaration, (q.2.samples.map fun s =>
      ((q.1.sampleName, q.2.labels.zip s.1), s.2)).map (·.1) =
        q.2.samples.keys.map fun values => (q.1.sampleName, q.2.labels.zip values) :=
    fun q => by simp [Pairs.keys]
  rw [entries, List.map_flatMap, List.flatMap_congr fun q _ => keyed q, List.nodup_flatMap]
  constructor
  · rintro ⟨c, m⟩ hm
    exact i.nodup_published (Pairs.get?_of_mem i.nodup hm)
  · refine (List.pairwise_map.mp i.nodup).imp_of_mem fun {p q} hp hq hne => ?_
    have there : ∀ p ∈ r.counters, b.labels p.1 ≠ none := fun p hp => by
      simp [i.labels_of_get? (Pairs.get?_of_mem i.nodup hp)]
    intro key hkey hkey'
    obtain ⟨x, -, rfl⟩ := List.mem_map.mp hkey
    obtain ⟨y, -, heq⟩ := List.mem_map.mp hkey'
    exact hne (i.named p.1 q.1 (there p hp) (there q hq) (Prod.mk.inj heq).1.symm)

/-- The number on the books is the whole number that is published. -/
theorem published (i : Keeps r b) :
    ∃ samples, r.samples = .ok samples ∧ (samples.map (·.1)).Nodup ∧
      ∀ key n, (key, n) ∈ samples ↔ ∃ k : Nat, b.count key = some k ∧ n = k := by
  have whole : ∀ e ∈ r.entries, ∃ k, Double.Exact k ∧ e.2 = some (k * Double.one) := by
    rintro ⟨key, count⟩ he
    obtain ⟨c, labels, values, sampled, -⟩ := i.mem_entries.mp he
    exact (i.sound c labels values count sampled).2
  refine ⟨_, samples_eq whole, ?_, fun key n => ?_⟩
  · rw [List.map_map]
    exact i.nodup_entries
  · rw [List.mem_map]
    constructor
    · rintro ⟨⟨key', count⟩, he, heq⟩
      obtain ⟨rfl, rfl⟩ := Prod.mk.inj heq
      obtain ⟨k, -, rfl⟩ := whole _ he
      refine ⟨k, (i.count key' k).mpr (i.mem_entries.mp he), ?_⟩
      rw [Count.value_mul_one]
    · rintro ⟨k, hk, rfl⟩
      refine ⟨(key, some (k * Double.one)), i.mem_entries.mpr ((i.count key k).mp hk), ?_⟩
      rw [Count.value_mul_one]

end Keeps

/-- What a sample has come to is a double, and so is zero. -/
theorem Keeps.exact_getD (i : Keeps r b) (key : String × Tags) :
    Double.Exact ((b.count key).getD 0) := by
  cases hk : b.count key with
  | none => exact .of_lt (Double.twoTo_pos 53)
  | some k =>
    obtain ⟨c, labels, values, sampled, -⟩ := (i.count key k).mp hk
    obtain ⟨-, k', hexact, heq⟩ := i.sound c labels values _ sampled
    obtain rfl := Nat.eq_of_mul_eq_mul_right (Double.twoTo_pos _) (Option.some.inj heq)
    exact hexact

/-- A sample is chosen, or counted up: what it counted is on the books, and what it counts then. -/
theorem Keeps.inc (i : Keeps r b) (tags : Tags) (hl : b.labels c = some (tags.map (·.1))) {n : Nat}
    (hn : Double.Exact ((b.count (c.sampleName, tags)).getD 0 + n)) :
    ∃ m, r.counters.get? c = some m ∧
      m.countOf (tags.map (·.2)) =
        some ((b.count (c.sampleName, tags)).getD 0 * Double.one) ∧
      Keeps (r.withCounter c (m.withCount (tags.map (·.2))
        (some (((b.count (c.sampleName, tags)).getD 0 + n) * Double.one))))
          (b.inc (c.sampleName, tags) n) := by
  obtain ⟨m, hm, labels⟩ := i.exists_of_labels hl
  have hv : (tags.map (·.2)).length = m.labels.length := by simp [labels]
  have zipped : m.labels.zip (tags.map (·.2)) = tags := by
    rw [labels, List.zip_map']
    exact List.map_id' tags
  have counts := i.countOf hm hv
  have keeps := i.withCount hm hv hn
  rw [zipped] at counts keeps
  exact ⟨m, hm, counts, keeps⟩

/-! ## §5 The laws -/

/-- The client that counts in doubles is lawful. -/
theorem lawful : client.Lawful Accepts Keeps where
  empty := keeps_empty
  accepted_names := by
    intro r b c labels i accepts new apart
    obtain ⟨hname, hfamily, hlabels⟩ := accepts
    refine ⟨_, r.declare_of_free c hname hfamily hlabels (i.free apart), ?_⟩
    have declared := i.declare new apart labels
    cases labels with
    | nil =>
      obtain ⟨m, hm, counts, begun⟩ := declared.inc (c := c) [] (n := 0)
        (Function.update_self ..) (declared.exact_getD _)
      rw [withCounter, Pairs.get?_put, if_pos rfl] at hm
      cases hm
      rw [Nat.add_zero, ← counts, withCounter, withCounter, Pairs.put_put] at begun
      exact begun
    | cons label labels => exact declared
  children_at_zero := by
    intro r b c tags i hl hne hown
    obtain ⟨m, hm, counts, keeps⟩ := i.inc tags hl (n := 0) (i.exact_getD _)
    rw [Nat.add_zero, ← counts] at keeps
    refine ⟨_, ?_, keeps⟩
    have free : ¬(tags.map (·.1)).contains CounterClient.ownLabel = true := by simpa using hown
    simp only [client, choose, if_neg free, hm]
  own_label := by
    intro r b c tags i hl hown
    exact if_pos (by simpa using hown)
  exact_sums := by
    intro r b c tags k n i hl hk hn hsum
    have found : (b.count (c.sampleName, tags)).getD 0 = k := by rw [hk, Option.getD_some]
    obtain ⟨m, hm, counts, keeps⟩ := i.inc tags hl (n := n) (found ▸ hsum)
    rw [found] at counts keeps
    refine ⟨_, ?_, keeps⟩
    simp only [client, inc, hm, Declaration.count_exact counts hn hsum]
  published := fun i => i.published

end Collector

end Metrics

end SingleFlight
