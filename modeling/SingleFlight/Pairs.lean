/-
SingleFlight.Pairs — values by key, in the order in which the keys came.

A key that is put again keeps its place; one that was erased and is put again
goes to the end.

* `Pairs.get?_put`, `Pairs.get?_erase` — what the two changes do to the value of
  every key.
* `Pairs.keys_put` — what `put` does to the keys and their order.
* `Pairs.nodup_keys_put`, `Pairs.nodup_keys_erase`, `Pairs.get?_of_mem` — lists
  in which no key stands twice.
-/
namespace SingleFlight

/-- Keys with their values; the first pair of a key counts. -/
abbrev Pairs (κ α : Type) := List (κ × α)

namespace Pairs

variable {κ α : Type}

/-- The keys in order. -/
def keys (ps : Pairs κ α) : List κ :=
  ps.map (·.1)

@[simp] theorem keys_nil : keys ([] : Pairs κ α) = [] := rfl

@[simp] theorem keys_cons (k : κ) (v : α) (ps : Pairs κ α) :
    keys ((k, v) :: ps) = k :: keys ps := rfl

variable [DecidableEq κ]

/-- The value of a key. -/
def get? (ps : Pairs κ α) (key : κ) : Option α :=
  ps.lookup key

/-- Gives a key a value: in the key's place if it has one, else at the end. -/
def put (ps : Pairs κ α) (key : κ) (value : α) : Pairs κ α :=
  match ps with
  | [] => [(key, value)]
  | (k, v) :: rest => if k = key then (k, value) :: rest else (k, v) :: put rest key value

/-- Takes a key and its value out. -/
def erase (ps : Pairs κ α) (key : κ) : Pairs κ α :=
  ps.filter (·.1 ≠ key)

/-! ## Laws -/

@[simp] theorem get?_nil (key : κ) : get? ([] : Pairs κ α) key = none := rfl

theorem get?_cons (k : κ) (v : α) (ps : Pairs κ α) (key : κ) :
    get? ((k, v) :: ps) key = if key = k then some v else get? ps key := by
  by_cases h : key = k
  · simp [get?, h]
  · have hb : (key == k) = false := by simpa using h
    simp [get?, List.lookup_cons, hb, h]

/-- A key has the value that it was given last; the others keep theirs. -/
theorem get?_put (ps : Pairs κ α) (key : κ) (value : α) (k : κ) :
    (ps.put key value).get? k = if k = key then some value else ps.get? k := by
  induction ps with
  | nil => rw [put, get?_cons]
  | cons p rest ih =>
    obtain ⟨k', v⟩ := p
    rw [put]
    by_cases hk : k' = key
    · subst hk
      rw [if_pos rfl, get?_cons, get?_cons]
      by_cases h : k = k'
      · rw [if_pos h, if_pos h]
      · rw [if_neg h, if_neg h, if_neg h]
    · rw [if_neg hk, get?_cons, get?_cons, ih]
      by_cases h : k = k'
      · subst h
        rw [if_pos rfl, if_neg hk, if_pos rfl]
      · rw [if_neg h, if_neg h]

/-- A key that is put twice has the value that it was given last. -/
theorem put_put (ps : Pairs κ α) (key : κ) (value value' : α) :
    (ps.put key value).put key value' = ps.put key value' := by
  induction ps with
  | nil => simp [put]
  | cons p rest ih =>
    obtain ⟨k, v⟩ := p
    by_cases hk : k = key
    · simp [put, hk]
    · simp [put, hk, ih]

/-- An erased key has no value; the others keep theirs. -/
theorem get?_erase (ps : Pairs κ α) (key k : κ) :
    (ps.erase key).get? k = if k = key then none else ps.get? k := by
  induction ps with
  | nil => simp [erase]
  | cons p rest ih =>
    obtain ⟨k', v⟩ := p
    rw [erase] at ih ⊢
    by_cases hk : k' = key
    · subst hk
      rw [List.filter_cons_of_neg (by simp), ih, get?_cons]
      by_cases h : k = k'
      · rw [if_pos h, if_pos h]
      · rw [if_neg h, if_neg h, if_neg h]
    · rw [List.filter_cons_of_pos (by simpa using hk), get?_cons, get?_cons, ih]
      by_cases h : k = k'
      · subst h
        rw [if_pos rfl, if_neg hk, if_pos rfl]
      · rw [if_neg h, if_neg h]

/-- A key that is put again keeps its place, and a new one goes to the end. -/
theorem keys_put (ps : Pairs κ α) (key : κ) (value : α) :
    (ps.put key value).keys = if key ∈ ps.keys then ps.keys else ps.keys ++ [key] := by
  induction ps with
  | nil => simp [put]
  | cons p rest ih =>
    obtain ⟨k', v⟩ := p
    rw [put]
    by_cases hk : k' = key
    · subst hk
      simp
    · have hk' : ¬key = k' := fun h => hk h.symm
      rw [if_neg hk, keys_cons, ih, keys_cons]
      by_cases hm : key ∈ keys rest
      · simp [hm]
      · simp [hm, hk']

theorem mem_put {ps : Pairs κ α} {key : κ} {value : α} {p : κ × α} (h : p ∈ ps.put key value) :
    p = (key, value) ∨ p ∈ ps := by
  induction ps with
  | nil => exact .inl (List.mem_singleton.mp h)
  | cons q rest ih =>
    obtain ⟨k, v⟩ := q
    rw [put] at h
    split at h
    · rename_i hk
      rcases List.mem_cons.mp h with rfl | hm
      · exact .inl (by rw [hk])
      · exact .inr (List.mem_cons_of_mem _ hm)
    · rcases List.mem_cons.mp h with rfl | hm
      · exact .inr List.mem_cons_self
      · exact (ih hm).imp_right (List.mem_cons_of_mem _)

/-- A key that has no value is put at the end. -/
theorem put_of_get?_eq_none {ps : Pairs κ α} {key : κ} (h : ps.get? key = none) (value : α) :
    ps.put key value = ps ++ [(key, value)] := by
  induction ps with
  | nil => rfl
  | cons p rest ih =>
    obtain ⟨k, v⟩ := p
    rw [get?_cons] at h
    split at h
    · cases h
    · rename_i hk
      have hk' : ¬k = key := fun e => hk e.symm
      rw [put, if_neg hk', ih h, List.cons_append]

theorem get?_ne_none_of_mem {ps : Pairs κ α} {key : κ} {value : α} (h : (key, value) ∈ ps) :
    ps.get? key ≠ none := by
  induction ps with
  | nil => cases h
  | cons p rest ih =>
    obtain ⟨k, v⟩ := p
    rw [get?_cons]
    split
    · exact Option.some_ne_none v
    · rename_i hk
      rcases List.mem_cons.mp h with heq | hrest
      · cases heq
        exact absurd rfl hk
      · exact ih hrest

/-- A new key that is taken out again leaves no trace. -/
theorem erase_put_of_get?_eq_none {ps : Pairs κ α} {key : κ} (h : ps.get? key = none) (value : α) :
    (ps.put key value).erase key = ps := by
  have others : ∀ p ∈ ps, p.1 ≠ key := by
    rintro ⟨k, v⟩ hm rfl
    exact get?_ne_none_of_mem hm h
  rw [put_of_get?_eq_none h]
  simpa [erase] using others

theorem nodup_keys_put {ps : Pairs κ α} (h : ps.keys.Nodup) (key : κ) (value : α) :
    (ps.put key value).keys.Nodup := by
  rw [keys_put]
  split
  · exact h
  · rename_i hk
    refine List.nodup_append.mpr ⟨h, by simp, ?_⟩
    intro a ha b hb e
    rw [List.mem_singleton.mp hb] at e
    exact hk (e ▸ ha)

theorem nodup_keys_erase {ps : Pairs κ α} (h : ps.keys.Nodup) (key : κ) :
    (ps.erase key).keys.Nodup :=
  List.Nodup.sublist (List.Sublist.map _ List.filter_sublist) h

theorem mem_of_get? {ps : Pairs κ α} {key : κ} {value : α} (h : ps.get? key = some value) :
    (key, value) ∈ ps := by
  induction ps with
  | nil => cases h
  | cons p rest ih =>
    obtain ⟨k, v⟩ := p
    rw [get?_cons] at h
    split at h
    · rename_i hk
      cases h
      rw [hk]
      exact List.mem_cons_self ..
    · exact List.mem_cons_of_mem _ (ih h)

/-- Where no key is listed twice, every listed pair counts. -/
theorem get?_of_mem {ps : Pairs κ α} (h : ps.keys.Nodup) {key : κ} {value : α}
    (hm : (key, value) ∈ ps) : ps.get? key = some value := by
  induction ps with
  | nil => cases hm
  | cons p rest ih =>
    obtain ⟨k, v⟩ := p
    rw [keys_cons, List.nodup_cons] at h
    rw [get?_cons]
    rcases List.mem_cons.mp hm with heq | hrest
    · cases heq
      rw [if_pos rfl]
    · have hk : key ≠ k := by
        rintro rfl
        exact h.1 (List.mem_map.mpr ⟨(key, value), hrest, rfl⟩)
      rw [if_neg hk]
      exact ih h.2 hrest

end Pairs

end SingleFlight
