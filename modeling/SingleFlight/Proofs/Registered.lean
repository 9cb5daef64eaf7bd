/-
SingleFlight.Proofs.Registered — handles in a registry.

Handles come into a registry in two ways: a load makes one, or someone plants
one. Either way the handle is new, and registered under its own address. Then
it is registered once at most, and taking it out leaves no trace of it.

* `Registry.Tidy` — this property, for both kinds of registry.
* `Tidy.add`, `Tidy.update`, `Tidy.enter`, `Tidy.remove`, `Tidy.shut` — what
  keeps it.
* `Tidy.not_mem_remove` — a handle that was taken out is not registered.
* `find?_mem` — what a look-up finds is registered.
* `mem_of_mem_remove`, `mem_of_mem_attach`, `handles_attach` — who is registered
  after a change.
* `Loader.tidy_registryAfter` — a registry after the end of a load.
-/
import SingleFlight.Loader.Basic
import SingleFlight.Proofs.Loads

namespace SingleFlight.Registry

/-! ## §1 Looking up -/

theorem mem_of_first? {r : Registry} {table : Table Handle} {p : Handle → Bool} {h : HandleId}
    (hf : r.first? table p = some h) : h ∈ r.handles :=
  List.mem_of_find?_eq_some hf

/-- What a look-up finds is registered. -/
theorem find?_mem {r : Registry} {table : Table Handle} {url : String} {tag : Option String}
    {h : HandleId} (hf : r.find? table url tag = some h) : h ∈ r.handles := by
  cases r with
  | document hs n => exact mem_of_first? hf
  | keyed entries client =>
    simp only [find?] at hf
    split at hf
    · rename_i h' he
      cases hf
      exact List.mem_map.mpr ⟨(url, h), Pairs.mem_of_get? he, rfl⟩
    · split at hf
      · exact mem_of_first? hf
      · cases hf

/-! ## §2 Who is registered -/

@[simp] theorem handles_shut (r : Registry) : r.shut.handles = r.handles := by
  cases r with
  | document hs n => rfl
  | keyed entries client => rfl

/-- Taking a handle out brings none in. -/
theorem mem_of_mem_remove {r : Registry} {h h' : HandleId} {url : String}
    (hm : h' ∈ (r.remove h url).handles) : h' ∈ r.handles := by
  cases r with
  | document hs n => exact List.mem_of_mem_erase hm
  | keyed entries client =>
    unfold remove at hm
    dsimp only at hm
    split at hm
    · obtain ⟨p, hp, rfl⟩ := List.mem_map.mp hm
      exact List.mem_map.mpr ⟨p, (List.mem_filter.mp hp).1, rfl⟩
    · exact hm

/-- A handle that is attached under a free address takes nobody's place. -/
theorem handles_attach {r : Registry} {table : Table Handle} {url : String} {tag : Option String}
    (hf : r.find? table url tag = none) (h : HandleId) :
    (r.attach h url).handles = r.handles ++ [h] := by
  cases r with
  | document hs n => rfl
  | keyed entries client =>
    have hg : entries.get? url = none := by
      cases hg : entries.get? url with
      | none => rfl
      | some h' => simp [find?, hg] at hf
    simp [attach, handles, Pairs.put_of_get?_eq_none hg]

/-- A handle that is planted is the only new one. -/
theorem mem_of_mem_plant {r : Registry} {h h' : HandleId} {url : String}
    (hm : h' ∈ (r.plant h url).handles) : h' ∈ r.handles ∨ h' = h := by
  cases r with
  | document hs n => simpa [plant, handles] using hm
  | keyed entries client =>
    obtain ⟨p, hp, rfl⟩ := List.mem_map.mp hm
    rcases Pairs.mem_put hp with rfl | hp
    · exact .inr rfl
    · exact .inl (List.mem_map_of_mem hp)

theorem mem_of_mem_attach {r : Registry} {h h' : HandleId} {url : String}
    (hm : h' ∈ (r.attach h url).handles) : h' ∈ r.handles ∨ h' = h := by
  cases r with
  | document hs n => simpa [attach, handles] using hm
  | keyed entries client => exact mem_of_mem_plant (r := keyed entries client) hm

/-! ## §3 Tidy registries -/

/-- A handle of the table has the address. -/
def Has (table : Table Handle) (h : HandleId) (url : String) : Prop :=
  ∃ handle, table.get? h = some handle ∧ handle.url = url

/-- Each registered handle exists and is registered once, under its own address. -/
def Tidy (table : Table Handle) : Registry → Prop
  | document hs _ => hs.Nodup ∧ ∀ h ∈ hs, ∃ url, Has table h url
  | keyed entries _ => entries.keys.Nodup ∧ ∀ url h, (url, h) ∈ entries → Has table h url

namespace Tidy

variable {table table' : Table Handle} {r : Registry}

/-- A registry in which no handle is. -/
theorem of_empty (hr : r.handles = []) : r.Tidy table := by
  cases r with
  | document hs n =>
    cases (hr : hs = [])
    exact ⟨List.nodup_nil, fun h hm => nomatch hm⟩
  | keyed entries client =>
    cases List.map_eq_nil_iff.mp hr
    exact ⟨List.nodup_nil, fun url h hm => nomatch hm⟩

theorem exists_of_mem (t : r.Tidy table) {h : HandleId} (hm : h ∈ r.handles) :
    ∃ handle, table.get? h = some handle := by
  cases r with
  | document hs n =>
    obtain ⟨url, handle, hh, -⟩ := t.2 h hm
    exact ⟨handle, hh⟩
  | keyed entries client =>
    obtain ⟨⟨url, h'⟩, he, rfl⟩ := List.mem_map.mp hm
    obtain ⟨handle, hh, -⟩ := t.2 url h' he
    exact ⟨handle, hh⟩

/-- Handles keep their address, so a registry stays tidy whatever else becomes of them. -/
theorem of_has (t : r.Tidy table) (keep : ∀ h url, Has table h url → Has table' h url) :
    r.Tidy table' := by
  cases r with
  | document hs n =>
    refine ⟨t.1, fun h hm => ?_⟩
    obtain ⟨url, hh⟩ := t.2 h hm
    exact ⟨url, keep h url hh⟩
  | keyed entries client => exact ⟨t.1, fun url h hm => keep h url (t.2 url h hm)⟩

theorem add (t : r.Tidy table) (handle : Handle) : r.Tidy (table.add handle) := by
  refine t.of_has ?_
  rintro h url ⟨handle', hh, hurl⟩
  exact ⟨handle', Table.get?_add_of_some hh handle, hurl⟩

theorem update (t : r.Tidy table) (h : HandleId) {f : Handle → Handle}
    (hf : ∀ handle, (f handle).url = handle.url) : r.Tidy (table.update h f) := by
  refine t.of_has ?_
  rintro h' url ⟨handle, hh, hurl⟩
  by_cases hk : h = h'
  · exact ⟨f handle, by rw [Table.get?_update, if_pos hk, hh]; rfl, by rw [hf, hurl]⟩
  · exact ⟨handle, by rw [Table.get?_update, if_neg hk, hh], hurl⟩

/-- A new handle is none of those that are registered. -/
theorem size_not_mem (t : r.Tidy table) : table.size ∉ r.handles := by
  intro hm
  obtain ⟨handle, hh⟩ := t.exists_of_mem hm
  exact Table.ne_size_of_get? hh rfl

/-- A registry with one more handle, which is new and has the address. -/
theorem enter (t : r.Tidy table) {h : HandleId} {url : String} (hnew : h ∉ r.handles)
    (hh : Has table h url) : (r.attach h url).Tidy table ∧ (r.plant h url).Tidy table := by
  cases r with
  | document hs n =>
    have nodup : (hs ++ [h]).Nodup := by
      refine List.nodup_append.mpr ⟨t.1, by simp, ?_⟩
      intro a ha b hb e
      rw [List.mem_singleton.mp hb] at e
      exact hnew (e ▸ ha)
    have has : ∀ h' ∈ hs ++ [h], ∃ url, Has table h' url := by
      intro h' hm
      rcases List.mem_append.mp hm with hm | hm
      · exact t.2 h' hm
      · rw [List.mem_singleton.mp hm]
        exact ⟨url, hh⟩
    exact ⟨⟨nodup, has⟩, nodup, has⟩
  | keyed entries client =>
    have nodup : (entries.put url h).keys.Nodup := Pairs.nodup_keys_put t.1 url h
    have has : ∀ url' h', (url', h') ∈ entries.put url h → Has table h' url' := by
      intro url' h' hm
      have hget := Pairs.get?_of_mem nodup hm
      rw [Pairs.get?_put] at hget
      split at hget
      · rename_i hurl
        cases hget
        rw [hurl]
        exact hh
      · exact t.2 url' h' (Pairs.mem_of_get? hget)
    exact ⟨⟨nodup, has⟩, nodup, has⟩

theorem remove (t : r.Tidy table) (h : HandleId) (url : String) : (r.remove h url).Tidy table := by
  cases r with
  | document hs n =>
    exact ⟨t.1.erase h, fun h' hm => t.2 h' (List.mem_of_mem_erase hm)⟩
  | keyed entries client =>
    unfold Registry.remove
    dsimp only
    split
    · refine ⟨Pairs.nodup_keys_erase t.1 url, fun url' h' hm => ?_⟩
      exact t.2 url' h' (List.mem_filter.mp hm).1
    · exact t

theorem shut (t : r.Tidy table) : r.shut.Tidy table := by
  cases r with
  | document hs n => exact t
  | keyed entries client => exact t

/-- A handle that was taken out is not registered any more. -/
theorem not_mem_remove (t : r.Tidy table) {h : HandleId} {url : String} (hh : Has table h url) :
    h ∉ (r.remove h url).handles := by
  cases r with
  | document hs n => exact t.1.not_mem_erase
  | keyed entries client =>
    -- Under any address but its own the handle is not registered.
    have own : ∀ url', (url', h) ∈ entries → url' = url := by
      intro url' hm
      obtain ⟨handle, hget, rfl⟩ := hh
      obtain ⟨handle', hget', rfl⟩ := t.2 url' h hm
      rw [hget] at hget'
      cases hget'
      rfl
    unfold Registry.remove
    dsimp only
    split
    · intro hm
      obtain ⟨⟨url', h'⟩, hp, rfl⟩ := List.mem_map.mp hm
      have hp' := List.mem_filter.mp hp
      have hne : url' ≠ url := by simpa using hp'.2
      exact hne (own url' hp'.1)
    · rename_i hget
      intro hm
      obtain ⟨⟨url', h'⟩, hp, rfl⟩ := List.mem_map.mp hm
      have heq := own url' hp
      subst heq
      exact hget (Pairs.get?_of_mem t.1 hp)

end Tidy

end SingleFlight.Registry

namespace SingleFlight.Loader

/-! ## §4 Loads that end -/

/-- A load that does not end well takes its handle out of the registry. -/
theorem tidy_registryAfter {l : Loader}
    (t : l.registry.Tidy l.handles) {h : HandleId} {handle : Handle}
    (hh : l.handles.get? h = some handle) (e : LoadEvent) :
    (l.registryAfter h e).Tidy l.handles ∧
      (e.isLoad = false → h ∉ (l.registryAfter h e).handles) := by
  unfold registryAfter
  cases he : e.isLoad with
  | true => exact ⟨t, by simp⟩
  | false =>
    have hr : (l.remove h).registry = l.registry.remove h handle.url := by
      simp [Loader.remove, hh]
    simp only [Bool.false_eq_true, if_false, hr, true_implies]
    exact ⟨t.remove h handle.url, t.not_mem_remove ⟨handle, hh, rfl⟩⟩

end SingleFlight.Loader
