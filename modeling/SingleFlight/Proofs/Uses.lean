/-
SingleFlight.Proofs.Uses — what a tally holds after any number of uses.

A use counts one counter up, under tags none of which has two values. Two uses
count the same counter exactly if they agree in the name and in the tags, in
whatever order these were given. So all that a tally holds are sums over uses, and
neither their order nor the order of their tags is of any account.

* `Pairs.perm_of_get?_eq`, `Pairs.sum_put_add` — pairs compared by the values of
  their keys, and what a change does to a sum of values.
* `Metrics.Use` — a use; `Use.labels_eq_iff` and `Use.key_eq_mk_iff` say what the
  orders of its label names and of its tags are good for.
* `Metrics.counted` — how far uses count a counter up.
* `Tally.total_add` — what one count does to a total.
* `Tally.get?_recordAll` — the counters after uses; `get_recordAll` and
  `total_recordAll` are the values, `recordAll_perm` lets the order go.
-/
import Mathlib
import SingleFlight.Metrics.Tally

namespace SingleFlight

/-! ## §1 Pairs -/

namespace Pairs

variable {κ α : Type} [DecidableEq κ] {ps qs : Pairs κ α}

theorem get?_eq_some_iff (h : ps.keys.Nodup) {key : κ} {value : α} :
    ps.get? key = some value ↔ (key, value) ∈ ps :=
  ⟨mem_of_get?, get?_of_mem h⟩

/-- Where no key stands twice, the values of the keys are all there is, up to the order. -/
theorem perm_of_get?_eq (hp : ps.keys.Nodup) (hq : qs.keys.Nodup)
    (h : ∀ key, ps.get? key = qs.get? key) : ps.Perm qs := by
  refine (List.perm_ext_iff_of_nodup (.of_map _ hp) (.of_map _ hq)).mpr fun ⟨key, value⟩ => ?_
  rw [← get?_eq_some_iff hp, ← get?_eq_some_iff hq, h]

/-- Where a value grows, so does the sum of the values under the keys that count. -/
theorem sum_put_add {M : Type} [AddCommMonoid M] (counts : κ → Bool)
    (ps : Pairs κ M) (key : κ) (n : M) :
    (((ps.put key ((ps.get? key).getD 0 + n)).filter (counts ·.1)).map (·.2)).sum =
      ((ps.filter (counts ·.1)).map (·.2)).sum + if counts key then n else 0 := by
  induction ps with
  | nil => cases h : counts key <;> simp [put, h]
  | cons p rest ih =>
    obtain ⟨k, v⟩ := p
    rw [put, get?_cons]
    by_cases hk : k = key
    · subst hk
      cases h : counts k with
      | true => simp [h, add_right_comm]
      | false => simp [h]
    · rw [if_neg hk, if_neg fun h => hk h.symm]
      cases h : counts k with
      | true => simp [h, add_assoc, ih]
      | false => simpa [h] using ih

end Pairs

namespace Metrics

/-! ## §2 Tags in order -/

theorem sortTags_perm (tags : Tags) : (sortTags tags).Perm tags :=
  List.mergeSort_perm ..

theorem pairwise_sortTags (tags : Tags) : (sortTags tags).Pairwise fun a b => a.1 ≤ b.1 := by
  refine (List.pairwise_mergeSort (fun a b c hab hbc => ?_) (fun a b => ?_) tags).imp ?_
  · simp only [decide_eq_true_eq] at hab hbc ⊢
    exact hab.trans hbc
  · simpa using le_total a.1 b.1
  · intro a b hab
    simpa using hab

/-- Once in order, tags none of which has two values are told apart by nothing but their values. -/
theorem sortTags_eq_iff {tags : Tags} (h : (tags.map (·.1)).Nodup) {tags' : Tags} :
    sortTags tags = sortTags tags' ↔ tags.Perm tags' := by
  constructor
  · intro heq
    exact (sortTags_perm tags).symm.trans (heq ▸ sortTags_perm tags')
  · intro hperm
    have same : (sortTags tags).Perm (sortTags tags') :=
      (sortTags_perm tags).trans (hperm.trans (sortTags_perm tags').symm)
    refine same.eq_of_pairwise (fun a b ha hb hab hba => ?_) (pairwise_sortTags tags)
      (pairwise_sortTags tags')
    have ha' : a ∈ tags := (sortTags_perm tags).mem_iff.mp ha
    have hb' : b ∈ tags := hperm.mem_iff.mpr ((sortTags_perm tags').mem_iff.mp hb)
    exact List.inj_on_of_nodup_map h ha' hb' (le_antisymm hab hba)

/-! ## §3 Uses -/

/-- One use: the counter, by how much it is counted up, and tags none of which has two values. -/
structure Use where
  name : String
  amount : Nat
  tags : Tags
  distinct : (tags.map (·.1)).Nodup

namespace Use

/-- The names of the labels, in order. -/
def labels (u : Use) : List String :=
  (sortTags u.tags).map (·.1)

/-- What a tally keeps the counter under. -/
def key (u : Use) : String × Tags :=
  (u.name, sortTags u.tags)

/-- Two uses have the same set of label names. -/
def SameLabels (u v : Use) : Prop :=
  ∀ label, label ∈ u.tags.map (·.1) ↔ label ∈ v.tags.map (·.1)

theorem labels_perm (u : Use) : u.labels.Perm (u.tags.map (·.1)) :=
  (sortTags_perm u.tags).map _

theorem mem_labels {u : Use} {label : String} :
    label ∈ u.labels ↔ label ∈ u.tags.map (·.1) :=
  u.labels_perm.mem_iff

theorem pairwise_labels (u : Use) : u.labels.Pairwise (· < ·) := by
  have sorted : u.labels.Pairwise (· ≤ ·) := List.pairwise_map.mpr (pairwise_sortTags u.tags)
  have distinct : u.labels.Nodup := u.labels_perm.nodup_iff.mpr u.distinct
  exact (sorted.and distinct).imp fun h => lt_of_le_of_ne h.1 h.2

theorem labels_eq_iff {u v : Use} : u.labels = v.labels ↔ u.SameLabels v := by
  constructor
  · intro h label
    rw [← mem_labels, ← mem_labels, h]
  · intro h
    refine u.pairwise_labels.eq_of_mem_iff v.pairwise_labels fun label => ?_
    rw [mem_labels, mem_labels]
    exact h label

theorem key_eq_mk_iff {u : Use} {name : String} {tags : Tags} :
    u.key = (name, sortTags tags) ↔ u.name = name ∧ u.tags.Perm tags := by
  rw [key, Prod.mk.injEq, sortTags_eq_iff u.distinct]

end Use

/-- How far uses count the counter of a key up. -/
def counted (us : List Use) (key : String × Tags) : Nat :=
  ((us.filter (·.key = key)).map (·.amount)).sum

variable {us vs : List Use} {key : String × Tags}

theorem counted_concat (us : List Use) (u : Use) (key : String × Tags) :
    counted (us ++ [u]) key = counted us key + if u.key = key then u.amount else 0 := by
  unfold counted
  by_cases h : u.key = key <;> simp [h]

theorem counted_perm (h : us.Perm vs) (key : String × Tags) : counted us key = counted vs key :=
  ((h.filter _).map _).sum_eq

/-! ## §4 Tallies -/

namespace Tally

/-- Takes down one use. -/
def record (t : Tally) (u : Use) : Tally :=
  t.add u.name u.amount u.tags

/-- Takes down uses one after the other. -/
def recordAll (t : Tally) (us : List Use) : Tally :=
  us.foldl record t

theorem recordAll_concat (t : Tally) (us : List Use) (u : Use) :
    t.recordAll (us ++ [u]) = (t.recordAll us).record u :=
  List.foldl_append

theorem valueAt_recordAll (us : List Use) (key : String × Tags) :
    valueAt (recordAll {} us).counters key = counted us key := by
  induction us using List.reverseRecOn with
  | nil => rfl
  | append_singleton us u ih =>
    rw [recordAll_concat, record, add, valueAt_addAt, ih, counted_concat]
    by_cases h : u.key = key
    · subst h
      simp [Use.key]
    · have hne : ¬key = (u.name, sortTags u.tags) := Ne.symm h
      simp [h, hne]

/-- There is a counter for each key that was used, and it holds the sum of its uses. -/
theorem get?_recordAll (us : List Use) (key : String × Tags) :
    (recordAll {} us).counters.get? key =
      if key ∈ us.map (·.key) then some (counted us key : Int) else none := by
  induction us using List.reverseRecOn with
  | nil => rfl
  | append_singleton us u ih =>
    rw [recordAll_concat, record, add, addAt, Pairs.get?_put]
    by_cases h : key = u.key
    · subst h
      have hkey : (u.name, sortTags u.tags) = u.key := rfl
      rw [hkey, if_pos rfl, valueAt_recordAll, if_pos (by simp), counted_concat, if_pos rfl]
      rfl
    · have hkey : ¬key = (u.name, sortTags u.tags) := h
      rw [if_neg hkey, ih, counted_concat, if_neg (Ne.symm h), Nat.add_zero]
      simp [h]

theorem nodup_recordAll (us : List Use) : (recordAll {} us).counters.keys.Nodup := by
  induction us using List.reverseRecOn with
  | nil => exact List.nodup_nil
  | append_singleton us u ih =>
    rw [recordAll_concat]
    exact Pairs.nodup_keys_put ih _ _

/-- The counters, one for each key that was used. -/
theorem mem_counters_recordAll {key : String × Tags} {n : Int} :
    (key, n) ∈ (recordAll {} us).counters ↔ ∃ u ∈ us, u.key = key ∧ n = counted us key := by
  rw [← Pairs.get?_eq_some_iff (nodup_recordAll us), get?_recordAll]
  split
  · rename_i hmem
    obtain ⟨u, hu, hkey⟩ := List.mem_map.mp hmem
    constructor
    · rintro ⟨⟩
      exact ⟨u, hu, hkey, rfl⟩
    · rintro ⟨-, -, -, rfl⟩
      rfl
  · rename_i hnone
    refine ⟨nofun, ?_⟩
    rintro ⟨u, hu, rfl, -⟩
    exact absurd (List.mem_map.mpr ⟨u, hu, rfl⟩) hnone

/-- The order of the uses is of no account. -/
theorem recordAll_perm (h : us.Perm vs) :
    (recordAll {} us).counters.Perm (recordAll {} vs).counters := by
  refine Pairs.perm_of_get?_eq (nodup_recordAll us) (nodup_recordAll vs) fun key => ?_
  simp only [get?_recordAll, counted_perm h, (h.map (·.key)).mem_iff]

/-- A counter is the sum of the uses of its name under its tags, in any order of these. -/
theorem get_recordAll (us : List Use) (name : String) (tags : Tags) :
    (recordAll {} us).get name tags =
      ((us.filter fun u => u.name = name ∧ u.tags.Perm tags).map (·.amount)).sum := by
  have sums : ((us.filter fun u => u.name = name ∧ u.tags.Perm tags).map (·.amount)).sum =
      counted us (name, sortTags tags) := by
    simp only [counted, Use.key_eq_mk_iff]
  rw [sums, get, valueAt_recordAll]

theorem total_eq_sum (t : Tally) (name : String) :
    t.total name = ((t.counters.filter (·.1.1 == name)).map (·.2)).sum := by
  rw [total, List.sum_eq_foldl, List.foldl_map]

theorem total_add (t : Tally) (name other : String) (n : Int) (tags : Tags) :
    (t.add name n tags).total other = t.total other + if name = other then n else 0 := by
  have grown := Pairs.sum_put_add (fun key : String × Tags => key.1 == other) t.counters
    (name, sortTags tags) n
  simp only [beq_iff_eq] at grown
  rw [total_eq_sum, total_eq_sum]
  exact grown

theorem total_recordAll (us : List Use) (name : String) :
    (recordAll {} us).total name = ((us.filter (·.name = name)).map (·.amount)).sum := by
  induction us using List.reverseRecOn with
  | nil => rfl
  | append_singleton us u ih =>
    rw [recordAll_concat, record, total_add, ih]
    by_cases h : u.name = name <;> simp [h]

end Tally

end Metrics

end SingleFlight
