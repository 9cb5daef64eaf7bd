/-
SingleFlight.Proofs.Bookkeeping — declared counters publish what a tally would hold.

Declared counters keep, for each name, the label names of its first use; a use with
other label names is refused, and any other is passed on to a client. A tally keeps
one counter for each name and set of tags and refuses nothing. Fed with the uses that
the declared counters take, it holds what the client publishes: the same keys, under
the names of the samples, with the same values.

Of the client no more is assumed than `CounterClient.Lawful` says: which names it
accepts, that a sample begins at zero, and that sums are exact where they are doubles.
What whoever counts has to see to are names and labels that the client accepts, names
whose families have no series in common (`Permitted`), and whole numbers that doubles
count exactly (`Exact`).

* `CounterClient.Lawful` — the laws of a client, about the `Books` that it keeps.
* `Declared.fitting` — the uses that have the label names of the first use of their
  name, so that a sample can be chosen by them.
* `Declared.Holds` — what declared counters hold after uses; `Declared.Primed` — the
  same when the counter of the next one is declared.
* `Holds.record` — one use more; `holds_recordAll` — a whole run.
* `Declared.Holds.samples_perm` — the samples against the tally.
-/
import SingleFlight.Metrics.Declared
import SingleFlight.Proofs.Uses

namespace SingleFlight

/-! ## §1 Exact counts -/

/-- The whole number is a double. -/
def Double.Exact (n : Nat) : Prop :=
  ofNat? n = some n

namespace Metrics

/--
Doubles count these uses exactly, in this order: each amount is a double, and so is whatever the
counter of a use comes to on the way.
-/
def Exact (us : List Use) : Prop :=
  ∀ u ∈ us, Double.Exact u.amount ∧ ∀ seen, seen <+: us → Double.Exact (counted seen u.key)

/-! ## §2 The laws of a client -/

/-- Neither family is the other one, and the first is not the second with a suffix. -/
def CounterName.Apart (c c' : CounterName) : Prop :=
  c.family ≠ c'.family ∧ c.family ≠ c'.family ++ "_total" ∧ c.family ≠ c'.family ++ "_created"

instance (c c' : CounterName) : Decidable (c.Apart c') :=
  inferInstanceAs (Decidable (_ ∧ _))

/-- The books of a client: the label names of its counters, and the count of each sample. -/
structure Books where
  labels : CounterName → Option (List String) := fun _ => none
  count : String × Tags → Option Nat := fun _ => none

namespace Books

/-- A sample is counted up; if there was none, it begins at zero. -/
def inc (b : Books) (key : String × Tags) (n : Nat) : Books :=
  { b with count := Function.update b.count key (some ((b.count key).getD 0 + n)) }

/-- A counter is declared. Without labels it has its one sample from the start. -/
def declare (b : Books) (c : CounterName) (labels : List String) : Books :=
  let declared := { b with labels := Function.update b.labels c (some labels) }
  if labels = [] then declared.inc (c.sampleName, []) 0 else declared

@[simp] theorem labels_inc (b : Books) (key : String × Tags) (n : Nat) :
    (b.inc key n).labels = b.labels := rfl

@[simp] theorem labels_declare (b : Books) (c : CounterName) (labels : List String) :
    (b.declare c labels).labels = Function.update b.labels c (some labels) := by
  unfold declare
  split <;> rfl

/-- A sample that is there is not touched by a count of zero. -/
theorem inc_zero {b : Books} {key : String × Tags} {n : Nat} (h : b.count key = some n) :
    b.inc key 0 = b := by
  have same : Function.update b.count key (some n) = b.count := by
    rw [← h, Function.update_eq_self]
  rw [inc, h, Option.getD_some, Nat.add_zero, same]

theorem count_inc_congr {b b' : Books} (h : b.count = b'.count) (key : String × Tags) (n : Nat) :
    (b.inc key n).count = (b'.inc key n).count := by
  rw [inc, inc, h]

/-- To begin a sample and to count it up comes to counting it up. -/
theorem inc_inc (b : Books) (key : String × Tags) (n : Nat) :
    (b.inc key 0).inc key n = b.inc key n := by
  simp [inc]

end Books

open CounterClient (ownLabel)

/--
What is relied on of a client: `Accepts` are the names of counters, with label names, that it takes,
and `Keeps` says what a registry has on its books.
-/
structure CounterClient.Lawful {ρ : Type} (client : CounterClient ρ)
    (Accepts : CounterName → List String → Prop) (Keeps : ρ → Books → Prop) : Prop where
  empty : Keeps client.empty {}
  /-- A name that is accepted can be declared beside names from which it is apart. -/
  accepted_names : ∀ {r b c labels}, Keeps r b → Accepts c labels → b.labels c = none →
    (∀ c', b.labels c' ≠ none → c.Apart c' ∧ c'.Apart c) →
      ∃ r', client.declare r c labels = .ok r' ∧ Keeps r' (b.declare c labels)
  /-- A sample that is chosen by its labels is there from then on, at zero in the beginning. -/
  children_at_zero : ∀ {r b c tags}, Keeps r b → b.labels c = some (tags.map (·.1)) → tags ≠ [] →
    ownLabel ∉ tags.map (·.1) →
      ∃ r', client.choose r c tags = .ok r' ∧ Keeps r' (b.inc (c.sampleName, tags) 0)
  /-- No sample can be chosen by a label that has the name of the choice's own. -/
  own_label : ∀ {r b c tags}, Keeps r b → b.labels c = some (tags.map (·.1)) →
    ownLabel ∈ tags.map (·.1) → client.choose r c tags = .error (.labelClash ownLabel)
  /-- A sample is counted up by exactly the amount, if that and the sum are doubles. -/
  exact_sums : ∀ {r b c tags k n}, Keeps r b → b.labels c = some (tags.map (·.1)) →
    b.count (c.sampleName, tags) = some k → Double.Exact n → Double.Exact (k + n) →
      ∃ r', client.inc r c tags (.whole n) = (r', none) ∧ Keeps r' (b.inc (c.sampleName, tags) n)
  /-- What is published is what is on the books, each sample once. -/
  published : ∀ {r b}, Keeps r b → ∃ samples, client.samples r = .ok samples ∧
    (samples.map (·.1)).Nodup ∧
      ∀ key n, (key, n) ∈ samples ↔ ∃ k : Nat, b.count key = some k ∧ n = k

namespace Declared

variable {ρ : Type} {client : CounterClient ρ} {Accepts : CounterName → List String → Prop}
  {Keeps : ρ → Books → Prop} {space : String} {d : Declared ρ} {uses seen : List Use} {u : Use}

/-! ## §3 Uses of declared counters -/

/-- The names and labels of uses are accepted, each by itself, and no two names clash. -/
structure Permitted (Accepts : CounterName → List String → Prop) (space : String)
    (uses : List Use) : Prop where
  accepted : ∀ u ∈ uses, Accepts ⟨space, u.name⟩ u.labels
  apart : ∀ u ∈ uses, ∀ v ∈ uses, u.name ≠ v.name →
    CounterName.Apart ⟨space, u.name⟩ ⟨space, v.name⟩

theorem Permitted.mono {us vs : List Use} (h : Permitted Accepts space vs)
    (hsub : ∀ u ∈ us, u ∈ vs) : Permitted Accepts space us where
  accepted u hu := h.accepted u (hsub u hu)
  apart u hu v hv := h.apart u (hsub u hu) v (hsub v hv)

/-- Counts one use. -/
def record (client : CounterClient ρ) (d : Declared ρ) (u : Use) :
    Declared ρ × Option MetricsError :=
  d.add client u.name (.whole u.amount) u.tags

/-- Counts uses one after the other, whether they are refused or not. -/
def recordAll (client : CounterClient ρ) (d : Declared ρ) (us : List Use) : Declared ρ :=
  us.foldl (fun d u => (d.record client u).1) d

/-- The uses that are not refused. -/
def accepted (client : CounterClient ρ) (d : Declared ρ) : List Use → List Use
  | [] => []
  | u :: us =>
    let rest := (d.record client u).1.accepted client us
    if (d.record client u).2.isNone then u :: rest else rest

theorem recordAll_concat (d : Declared ρ) (us : List Use) (u : Use) :
    d.recordAll client (us ++ [u]) = ((d.recordAll client us).record client u).1 :=
  List.foldl_append

theorem accepted_concat (d : Declared ρ) (us : List Use) (u : Use) :
    d.accepted client (us ++ [u]) = d.accepted client us ++
      if ((d.recordAll client us).record client u).2.isNone then [u] else [] := by
  induction us generalizing d with
  | nil => rfl
  | cons v us ih =>
    rw [List.cons_append, accepted, accepted, ih]
    split <;> simp [recordAll]

/-- The label names of the first use of a name. -/
def firstLabels? (us : List Use) (name : String) : Option (List String) :=
  (us.find? (·.name = name)).map (·.labels)

theorem firstLabels?_append (us vs : List Use) (name : String) :
    firstLabels? (us ++ vs) name = (firstLabels? us name).or (firstLabels? vs name) := by
  rw [firstLabels?, List.find?_append, Option.map_or, firstLabels?, firstLabels?]

theorem firstLabels?_singleton (u : Use) (name : String) :
    firstLabels? [u] name = if u.name = name then some u.labels else none := by
  by_cases h : u.name = name <;> simp [firstLabels?, h]

theorem firstLabels?_mono {us vs : List Use} (h : us <+: vs) {name : String}
    {labels : List String} (hl : firstLabels? us name = some labels) :
    firstLabels? vs name = some labels := by
  obtain ⟨rest, rfl⟩ := h
  rw [firstLabels?_append, hl, Option.some_or]

theorem exists_of_firstLabels? {us : List Use} {name : String} {labels : List String}
    (h : firstLabels? us name = some labels) : ∃ u ∈ us, u.name = name ∧ u.labels = labels := by
  obtain ⟨u, hu, rfl⟩ := Option.map_eq_some_iff.mp h
  exact ⟨u, List.mem_of_find?_eq_some hu, by simpa using List.find?_some hu, rfl⟩

theorem exists_firstLabels? (seen : List Use) (u : Use) :
    ∃ first, firstLabels? (seen ++ [u]) u.name = some first := by
  rw [firstLabels?_append, firstLabels?_singleton, if_pos rfl]
  cases firstLabels? seen u.name with
  | none => exact ⟨_, rfl⟩
  | some first => exact ⟨first, rfl⟩

/-- The next use has the label names of the first one of its name; the other names are as before. -/
theorem firstLabels?_concat (h : firstLabels? seen u.name ≠ none) (name : String) :
    firstLabels? (seen ++ [u]) name = firstLabels? seen name := by
  rw [firstLabels?_append, firstLabels?_singleton]
  split
  · rename_i hname
    obtain ⟨labels, hlabels⟩ := Option.ne_none_iff_exists'.mp h
    rw [← hname, hlabels, Option.some_or]
  · rw [Option.or_none]

/-- A use has the label names of the first use of its name, and a sample can be chosen by them. -/
def Fits (uses : List Use) (u : Use) : Prop :=
  firstLabels? uses u.name = some u.labels ∧ ownLabel ∉ u.labels

instance (uses : List Use) (u : Use) : Decidable (Fits uses u) :=
  inferInstanceAs (Decidable (_ ∧ _))

/-- Those of the uses `seen` that fit among `uses`. -/
def fitting (uses seen : List Use) : List Use :=
  seen.filter (Fits uses ·)

theorem mem_fitting : u ∈ fitting uses seen ↔ u ∈ seen ∧ Fits uses u := by
  simp [fitting]

theorem fitting_prefix (uses : List Use) {seen seen' : List Use} (h : seen <+: seen') :
    fitting uses seen <+: fitting uses seen' :=
  h.filter _

theorem fitting_concat (uses seen : List Use) (u : Use) :
    fitting uses (seen ++ [u]) = fitting uses seen ++ if Fits uses u then [u] else [] := by
  by_cases h : Fits uses u <;> simp [fitting, h]

theorem Fits.labels_eq {u v : Use} (hu : Fits uses u) (hv : Fits uses v) (h : u.name = v.name) :
    u.labels = v.labels :=
  Option.some.inj (hu.1.symm.trans (h ▸ hv.1))

/-- What the client publishes the counter of a use under. -/
def sampleOf (space : String) (u : Use) : String × Tags :=
  (CounterName.sampleName ⟨space, u.name⟩, sortTags u.tags)

/-- The names of samples tell the names of counters apart. -/
theorem Permitted.sampleName_inj (p : Permitted Accepts space uses) {u v : Use} (hu : u ∈ uses)
    (hv : v ∈ uses)
    (h : CounterName.sampleName ⟨space, u.name⟩ = CounterName.sampleName ⟨space, v.name⟩) :
    u.name = v.name := by
  by_contra hne
  exact (p.apart u hu v hv hne).1 ((String.append_left_inj _).mp h)

theorem Permitted.sampleOf_eq_iff (p : Permitted Accepts space uses) {u v : Use} (hu : u ∈ uses)
    (hv : v ∈ uses) : sampleOf space u = sampleOf space v ↔ u.key = v.key := by
  simp only [sampleOf, Use.key, Prod.mk.injEq]
  refine and_congr_left fun _ => ⟨p.sampleName_inj hu hv, fun h => by rw [h]⟩

/-! ## §4 One use more -/

/-- The books after `seen`, the first ones of `uses`. -/
structure Told (space : String) (uses seen : List Use) (b : Books) : Prop where
  /-- For every name that was used, the label names of its first use. -/
  labels : ∀ c, b.labels c = if c.space = space then firstLabels? seen c.name else none
  /-- A sample for every use that fits. -/
  count : ∀ key n, b.count key = some n ↔
    ∃ u ∈ fitting uses seen, sampleOf space u = key ∧ n = counted (fitting uses seen) u.key

namespace Told

variable {b b' : Books} {first : List String}

theorem getD_count (t : Told space uses seen b) (p : Permitted Accepts space (seen ++ [u])) :
    (b.count (sampleOf space u)).getD 0 = counted (fitting uses seen) u.key := by
  have found : ∀ v ∈ fitting uses seen, sampleOf space v = sampleOf space u ↔ v.key = u.key :=
    fun v hv => p.sampleOf_eq_iff (List.mem_append_left _ (mem_fitting.mp hv).1) (by simp)
  cases hcount : b.count (sampleOf space u) with
  | some k =>
    obtain ⟨v, hv, hsample, rfl⟩ := (t.count _ k).mp hcount
    rw [Option.getD_some, (found v hv).mp hsample]
  | none =>
    have unused : (fitting uses seen).filter (·.key = u.key) = [] := by
      refine List.filter_eq_nil_iff.mpr fun v hv hkey => ?_
      have there := (t.count (sampleOf space u) _).mpr
        ⟨v, hv, (found v hv).mpr (by simpa using hkey), rfl⟩
      rw [hcount] at there
      cases there
    rw [counted, unused]
    rfl

/-- One use more that fits: its sample is counted up. -/
theorem inc (t : Told space uses seen b) (p : Permitted Accepts space (seen ++ [u]))
    (fits : Fits uses u) (hc : b'.count = (b.inc (sampleOf space u) u.amount).count)
    (hl : ∀ c, b'.labels c = if c.space = space then firstLabels? (seen ++ [u]) c.name else none) :
    Told space uses (seen ++ [u]) b' where
  labels := hl
  count := by
    intro key n
    rw [hc, fitting_concat, if_pos fits, Books.inc, t.getD_count p]
    dsimp only
    by_cases hkey : key = sampleOf space u
    · subst hkey
      rw [Function.update_self, Option.some_inj]
      constructor
      · rintro rfl
        exact ⟨u, by simp, rfl, by rw [counted_concat, if_pos rfl]⟩
      · rintro ⟨v, hv, hsample, rfl⟩
        have hv' : v ∈ seen ++ [u] := by
          rcases List.mem_append.mp hv with hv | hv
          · exact List.mem_append_left _ (mem_fitting.mp hv).1
          · exact List.mem_append_right _ hv
        rw [(p.sampleOf_eq_iff hv' (by simp)).mp hsample, counted_concat, if_pos rfl]
    · rw [Function.update_of_ne hkey, t.count]
      have other : ∀ v, sampleOf space v = key → ¬u.key = v.key := by
        rintro v rfl heq
        refine hkey ?_
        obtain ⟨hname, htags⟩ := Prod.mk.inj heq
        rw [sampleOf, sampleOf, ← hname, ← htags]
      constructor
      · rintro ⟨v, hv, hsample, rfl⟩
        refine ⟨v, List.mem_append_left _ hv, hsample, ?_⟩
        rw [counted_concat, if_neg (other v hsample), Nat.add_zero]
      · rintro ⟨v, hv, hsample, rfl⟩
        rcases List.mem_append.mp hv with hv | hv
        · refine ⟨v, hv, hsample, ?_⟩
          rw [counted_concat, if_neg (other v hsample), Nat.add_zero]
        · rw [List.mem_singleton.mp hv] at hsample
          exact absurd hsample.symm hkey

/-- What a use that does not fit leaves behind. -/
theorem skip (t : Told space uses seen b) (unfit : ¬Fits uses u) (hc : b'.count = b.count)
    (hl : ∀ c, b'.labels c = if c.space = space then firstLabels? (seen ++ [u]) c.name else none) :
    Told space uses (seen ++ [u]) b' where
  labels := hl
  count := by
    rw [hc, fitting_concat, if_neg unfit, List.append_nil]
    exact t.count

end Told

/--
What declared counters hold after `seen`, the first ones of `uses`: for every name that was used,
the label names of its first use, and a sample for every use that fits.
-/
structure Holds (Keeps : ρ → Books → Prop) (space : String) (uses seen : List Use)
    (d : Declared ρ) : Prop where
  spaced : d.space = space
  labels : ∀ name, d.labels.get? name = firstLabels? seen name
  told : ∃ b, Keeps d.registry b ∧ Told space uses seen b

theorem holds_fresh (lawful : client.Lawful Accepts Keeps) (space : String) (uses : List Use) :
    Holds Keeps space uses [] (fresh client space) where
  spaced := rfl
  labels _ := rfl
  told := ⟨{}, lawful.empty, fun c => by simp [firstLabels?], fun key n => by simp [fitting]⟩

/--
The counter of a use is declared, while the use has still to be counted: of samples the books say no
more than they were told before, but that a counter without labels has its one sample.
-/
structure Primed (Keeps : ρ → Books → Prop) (space : String) (uses seen : List Use) (u : Use)
    (d : Declared ρ) (b : Books) : Prop where
  spaced : d.space = space
  labels : ∀ name, d.labels.get? name = firstLabels? (seen ++ [u]) name
  keeps : Keeps d.registry b
  known : ∀ c, b.labels c = if c.space = space then firstLabels? (seen ++ [u]) c.name else none
  begun : ∃ b₀, Told space uses seen b₀ ∧
    b.count = (if u.labels = [] then b₀.inc (sampleOf space u) 0 else b₀).count

namespace Told

variable {b : Books}

/-- A name whose first use had no labels has its sample since then. -/
theorem inc_zero (t : Told space uses seen b) (hu : seen ++ [u] <+: uses)
    (hseen : firstLabels? seen u.name = some u.labels) (hnil : u.labels = []) :
    b.inc (sampleOf space u) 0 = b := by
  obtain ⟨v, hv, hname, hlabels⟩ := exists_of_firstLabels? hseen
  have whole := firstLabels?_mono ((List.prefix_append _ _).trans hu) hseen
  have fits : Fits uses v := by
    rw [Fits, hname, hlabels, hnil]
    exact ⟨hnil ▸ whole, List.not_mem_nil⟩
  have untagged : ∀ w : Use, w.labels = [] → sortTags w.tags = [] := fun w hw =>
    List.map_eq_nil_iff.mp hw
  have same : sampleOf space v = sampleOf space u := by
    rw [sampleOf, sampleOf, hname, untagged v (hlabels.trans hnil), untagged u hnil]
  exact Books.inc_zero ((t.count _ _).mpr ⟨v, mem_fitting.mpr ⟨hv, fits⟩, same, rfl⟩)

/-- A new name is apart from all that were used. -/
theorem apart (t : Told space uses seen b) (p : Permitted Accepts space (seen ++ [u]))
    (new : firstLabels? seen u.name = none) (c : CounterName) (hc : b.labels c ≠ none) :
    CounterName.Apart ⟨space, u.name⟩ c ∧ c.Apart ⟨space, u.name⟩ := by
  obtain ⟨space', name⟩ := c
  rw [t.labels] at hc
  dsimp only at hc
  split at hc
  · rename_i hspace
    subst hspace
    obtain ⟨labels, hlabels⟩ := Option.ne_none_iff_exists'.mp hc
    obtain ⟨v, hv, rfl, -⟩ := exists_of_firstLabels? hlabels
    have hne : u.name ≠ v.name := by
      intro heq
      rw [heq, hlabels] at new
      cases new
    have hu' : u ∈ seen ++ [u] := by simp
    have hv' : v ∈ seen ++ [u] := List.mem_append_left _ hv
    exact ⟨p.apart u hu' v hv' hne, p.apart v hv' u hu' hne.symm⟩
  · exact absurd rfl hc

end Told

namespace Holds

variable {first : List String}

/-- A use with the label names of the first one of its name finds its counter. -/
theorem known (h : Holds Keeps space uses seen d) (hu : seen ++ [u] <+: uses)
    (hseen : firstLabels? seen u.name = some u.labels) :
    ∃ b, Primed Keeps space uses seen u d b := by
  obtain ⟨b, keeps, told⟩ := h.told
  have same : ∀ name, firstLabels? (seen ++ [u]) name = firstLabels? seen name :=
    firstLabels?_concat (by rw [hseen]; exact nofun)
  refine ⟨b,
    { spaced := h.spaced
      labels := fun name => (h.labels name).trans (same name).symm
      keeps := keeps
      known := fun c => by rw [told.labels, same]
      begun := ⟨b, told, ?_⟩ }⟩
  split
  · rename_i hnil
    rw [told.inc_zero hu hseen hnil]
  · rfl

/-- The first use of a name declares its counter. -/
theorem declares (lawful : client.Lawful Accepts Keeps) (h : Holds Keeps space uses seen d)
    (p : Permitted Accepts space (seen ++ [u])) (new : firstLabels? seen u.name = none) :
    ∃ d' b, d.counter client u.name u.labels = .ok d' ∧ Primed Keeps space uses seen u d' b := by
  obtain ⟨b, keeps, told⟩ := h.told
  have unknown : b.labels ⟨space, u.name⟩ = none := by rw [told.labels, if_pos rfl, new]
  obtain ⟨r, hr, keeps'⟩ := lawful.accepted_names keeps (p.accepted u (by simp)) unknown
    (told.apart p new)
  have counted : d.counter client u.name u.labels =
      .ok { d with registry := r, labels := d.labels.put u.name u.labels } := by
    simp only [Declared.counter, h.labels, new, h.spaced, hr]
  refine ⟨_, _, counted,
    { spaced := h.spaced
      labels := fun name => ?_
      keeps := keeps'
      known := fun c => ?_
      begun := ⟨b, told, ?_⟩ }⟩
  · rw [Pairs.get?_put, h.labels, firstLabels?_append, firstLabels?_singleton]
    split
    · rename_i hname
      subst hname
      rw [new, if_pos rfl, Option.none_or]
    · rename_i hname
      rw [if_neg (Ne.symm hname), Option.or_none]
  · rw [Books.labels_declare, firstLabels?_append, firstLabels?_singleton]
    by_cases hc : c = ⟨space, u.name⟩
    · subst hc
      rw [Function.update_self, if_pos rfl, if_pos rfl, new, Option.none_or]
    · rw [Function.update_of_ne hc, told.labels]
      split
      · rename_i hspace
        have hname : ¬u.name = c.name := by
          rintro hname
          exact hc (by cases c; cases hspace; cases hname; rfl)
        rw [if_neg hname, Option.or_none]
      · rfl
  · unfold Books.declare
    split
    · rename_i hnil
      have untagged : sortTags u.tags = [] := List.map_eq_nil_iff.mp hnil
      rw [sampleOf, untagged]
      rfl
    · rfl

/-- A use with the label names of the first one finds its counter or declares it. -/
theorem counter (lawful : client.Lawful Accepts Keeps) (h : Holds Keeps space uses seen d)
    (p : Permitted Accepts space (seen ++ [u])) (hu : seen ++ [u] <+: uses)
    (hfirst : firstLabels? (seen ++ [u]) u.name = some u.labels) :
    ∃ d' b, d.counter client u.name u.labels = .ok d' ∧ Primed Keeps space uses seen u d' b := by
  cases hseen : firstLabels? seen u.name with
  | none => exact h.declares lawful p hseen
  | some labels =>
    rw [firstLabels?_concat (by rw [hseen]; exact nofun), hseen] at hfirst
    rw [Option.some.inj hfirst] at hseen
    obtain ⟨b, primed⟩ := h.known hu hseen
    refine ⟨d, b, ?_, primed⟩
    simp only [Declared.counter, h.labels, hseen, if_true]

/-- A use with other label names than the first one of its name is refused, and changes nothing. -/
theorem drift (client : CounterClient ρ) (h : Holds Keeps space uses seen d)
    (hu : seen ++ [u] <+: uses)
    (hfirst : firstLabels? (seen ++ [u]) u.name = some first) (hne : first ≠ u.labels) :
    d.record client u = (d, some (.labelDrift u.name first u.labels)) ∧
      Holds Keeps space uses (seen ++ [u]) d := by
  have hseen : firstLabels? seen u.name = some first := by
    rw [firstLabels?_append] at hfirst
    cases hs : firstLabels? seen u.name with
    | none =>
      rw [hs, Option.none_or, firstLabels?_singleton, if_pos rfl] at hfirst
      exact absurd (Option.some.inj hfirst).symm hne
    | some labels => rwa [hs, Option.some_or] at hfirst
  have same : ∀ name, firstLabels? (seen ++ [u]) name = firstLabels? seen name :=
    firstLabels?_concat (by rw [hseen]; exact nofun)
  have unfit : ¬Fits uses u := fun hfits =>
    hne (Option.some.inj ((firstLabels?_mono hu hfirst).symm.trans hfits.1))
  have drifted : d.counter client u.name ((sortTags u.tags).map (·.1)) =
      .error (.labelDrift u.name first u.labels) := by
    simp only [Declared.counter, h.labels, hseen]
    exact if_neg hne
  obtain ⟨b, keeps, told⟩ := h.told
  refine ⟨by simp only [Declared.record, Declared.add, drifted], h.spaced,
    fun name => (h.labels name).trans (same name).symm, b, keeps, told.skip unfit rfl fun c => ?_⟩
  rw [told.labels, same]

end Holds

namespace Primed

variable {b : Books} {d' : Declared ρ}

theorem own (primed : Primed Keeps space uses seen u d b)
    (hfirst : firstLabels? (seen ++ [u]) u.name = some u.labels) :
    b.labels ⟨space, u.name⟩ = some u.labels := by
  rw [primed.known, if_pos rfl]
  exact hfirst

/-- No sample can be chosen for a use with the label that the choice has for itself. -/
theorem clash (lawful : client.Lawful Accepts Keeps) (primed : Primed Keeps space uses seen u d' b)
    (hd : d.counter client u.name u.labels = .ok d')
    (hfirst : firstLabels? (seen ++ [u]) u.name = some u.labels) (hown : ownLabel ∈ u.labels) :
    d.record client u = (d', some (.labelClash ownLabel)) ∧
      Holds Keeps space uses (seen ++ [u]) d' := by
  have hd' : d.counter client u.name ((sortTags u.tags).map (·.1)) = .ok d' := hd
  have tagged : sortTags u.tags ≠ [] := mt List.map_eq_nil_iff.mpr (List.ne_nil_of_mem hown)
  have clash := lawful.own_label primed.keeps (primed.own hfirst) hown
  obtain ⟨b₀, told, hcount⟩ := primed.begun
  rw [if_neg (List.ne_nil_of_mem hown)] at hcount
  refine ⟨?_, primed.spaced, primed.labels, b, primed.keeps,
    told.skip (fun fits => fits.2 hown) hcount primed.known⟩
  simp only [Declared.record, Declared.add, hd', primed.spaced, List.isEmpty_iff, if_neg tagged,
    clash]

/-- A use that fits has its sample, chosen by its labels if it has any. -/
theorem chosen (lawful : client.Lawful Accepts Keeps) (primed : Primed Keeps space uses seen u d b)
    (hfirst : firstLabels? (seen ++ [u]) u.name = some u.labels) (hown : ownLabel ∉ u.labels) :
    ∃ r b' b₀, (if (sortTags u.tags).isEmpty then .ok d.registry
        else client.choose d.registry ⟨space, u.name⟩ (sortTags u.tags)) = Except.ok r ∧
      Keeps r b' ∧ b'.labels = b.labels ∧ Told space uses seen b₀ ∧
      b'.count = (b₀.inc (sampleOf space u) 0).count := by
  obtain ⟨b₀, told, hcount⟩ := primed.begun
  by_cases hnil : u.labels = []
  · have untagged : sortTags u.tags = [] := List.map_eq_nil_iff.mp hnil
    rw [if_pos hnil] at hcount
    exact ⟨d.registry, b, b₀, by rw [untagged]; rfl, primed.keeps, rfl, told, hcount⟩
  · have tagged : sortTags u.tags ≠ [] := mt List.map_eq_nil_iff.mpr hnil
    rw [if_neg hnil] at hcount
    obtain ⟨r, hr, keeps⟩ :=
      lawful.children_at_zero primed.keeps (primed.own hfirst) tagged hown
    exact ⟨r, _, b₀, by rw [if_neg (by simpa using tagged)]; exact hr, keeps, rfl, told,
      Books.count_inc_congr hcount ..⟩

/-- A use that fits is counted. -/
theorem counts (lawful : client.Lawful Accepts Keeps) (primed : Primed Keeps space uses seen u d' b)
    (hd : d.counter client u.name u.labels = .ok d') (p : Permitted Accepts space (seen ++ [u]))
    (hfirst : firstLabels? (seen ++ [u]) u.name = some u.labels) (fits : Fits uses u)
    (amount : Double.Exact u.amount)
    (sum : Double.Exact (counted (fitting uses seen) u.key + u.amount)) :
    (d.record client u).2 = none ∧
      Holds Keeps space uses (seen ++ [u]) (d.record client u).1 := by
  have hd' : d.counter client u.name ((sortTags u.tags).map (·.1)) = .ok d' := hd
  obtain ⟨r, b', b₀, hr, keeps, hlabels, told, hcount⟩ := primed.chosen lawful hfirst fits.2
  have begun : b'.count (sampleOf space u) = some (counted (fitting uses seen) u.key) := by
    rw [hcount, Books.inc, told.getD_count p]
    exact Function.update_self ..
  obtain ⟨r', hr', keeps'⟩ :=
    lawful.exact_sums keeps (by rw [hlabels]; exact primed.own hfirst) begun amount sum
  have recorded : d.record client u = ({ d' with registry := r' }, none) := by
    simp only [Declared.record, Declared.add, hd', primed.spaced, hr, hr']
  have once : (b'.inc (sampleOf space u) u.amount).count =
      (b₀.inc (sampleOf space u) u.amount).count :=
    (Books.count_inc_congr hcount _ _).trans (congrArg Books.count (b₀.inc_inc _ _))
  rw [recorded]
  refine ⟨rfl, primed.spaced, primed.labels, _, keeps', told.inc p fits once fun c => ?_⟩
  rw [Books.labels_inc, hlabels]
  exact primed.known c

end Primed

/-- One use more: what is held then, and what the use was refused for. -/
theorem Holds.record {first : List String} (lawful : client.Lawful Accepts Keeps)
    (h : Holds Keeps space uses seen d) (p : Permitted Accepts space (seen ++ [u]))
    (exact : Exact (fitting uses uses)) (hu : seen ++ [u] <+: uses)
    (hfirst : firstLabels? (seen ++ [u]) u.name = some first) :
    Holds Keeps space uses (seen ++ [u]) (d.record client u).1 ∧
      (first ≠ u.labels → d.record client u = (d, some (.labelDrift u.name first u.labels))) ∧
      (first = u.labels → (d.record client u).2 =
        if ownLabel ∈ u.labels then some (.labelClash ownLabel) else none) := by
  by_cases hl : first = u.labels
  · subst hl
    obtain ⟨d', b, hd, primed⟩ := h.counter lawful p hu hfirst
    by_cases hown : ownLabel ∈ u.labels
    · obtain ⟨refused, holds⟩ := primed.clash lawful hd hfirst hown
      rw [refused]
      exact ⟨holds, fun hne => absurd rfl hne, fun _ => (if_pos hown).symm⟩
    · have fits : Fits uses u := ⟨firstLabels?_mono hu hfirst, hown⟩
      have taken : fitting uses (seen ++ [u]) = fitting uses seen ++ [u] := by
        rw [fitting_concat, if_pos fits]
      obtain ⟨amount, sums⟩ := exact u (mem_fitting.mpr ⟨hu.subset (by simp), fits⟩)
      have sum := sums _ (taken ▸ fitting_prefix uses hu)
      rw [counted_concat, if_pos rfl] at sum
      obtain ⟨taken, holds⟩ := primed.counts lawful hd p hfirst fits amount sum
      exact ⟨holds, fun hne => absurd rfl hne, fun _ => by rw [taken, if_neg hown]⟩
  · obtain ⟨drifted, holds⟩ := h.drift client hu hfirst hl
    rw [drifted]
    exact ⟨holds, fun _ => rfl, fun heq => absurd heq hl⟩

/-! ## §5 Runs -/

/-- What is held after any number of uses, and which of them were accepted. -/
theorem holds_recordAll (lawful : client.Lawful Accepts Keeps) (p : Permitted Accepts space uses)
    (exact : Exact (fitting uses uses)) (hseen : seen <+: uses) :
    Holds Keeps space uses seen ((fresh client space).recordAll client seen) ∧
      (fresh client space).accepted client seen = fitting uses seen := by
  -- The last use is split off, so that `Holds` of those before it decides whether it is taken.
  induction seen using List.reverseRecOn with
  | nil => exact ⟨holds_fresh lawful space uses, rfl⟩
  | append_singleton seen u ih =>
    obtain ⟨holds, accepted⟩ := ih ((List.prefix_append _ _).trans hseen)
    obtain ⟨first, hfirst⟩ := exists_firstLabels? seen u
    obtain ⟨holds', drifts, fits⟩ :=
      holds.record lawful (p.mono fun v hv => hseen.subset hv) exact hseen hfirst
    have hfirst' := firstLabels?_mono hseen hfirst
    rw [recordAll_concat, accepted_concat, accepted, fitting_concat]
    refine ⟨holds', congrArg _ ?_⟩
    by_cases hl : first = u.labels
    · rw [fits hl]
      by_cases hown : ownLabel ∈ u.labels <;> simp [Fits, hown, hfirst', hl]
    · rw [drifts hl]
      simp [Fits, hfirst', hl]

/-! ## §6 Samples and counters -/

/-- A counter of a tally under the name of its sample. -/
def asSample (space : String) (counter : (String × Tags) × Int) : (String × Tags) × Int :=
  ((CounterName.sampleName ⟨space, counter.1.1⟩, counter.1.2), counter.2)

theorem mem_map_asSample {us : List Use} {key : String × Tags} {n : Int} :
    (key, n) ∈ (Tally.recordAll {} us).counters.map (asSample space) ↔
      ∃ u ∈ us, sampleOf space u = key ∧ n = counted us u.key := by
  rw [List.mem_map]
  constructor
  · rintro ⟨⟨key', n'⟩, hc, heq⟩
    obtain ⟨rfl, rfl⟩ := Prod.mk.inj heq
    obtain ⟨u, hu, rfl, rfl⟩ := Tally.mem_counters_recordAll.mp hc
    exact ⟨u, hu, rfl, rfl⟩
  · rintro ⟨u, hu, rfl, rfl⟩
    exact ⟨(u.key, _), Tally.mem_counters_recordAll.mpr ⟨u, hu, rfl, rfl⟩, rfl⟩

theorem nodup_map_asSample (p : Permitted Accepts space uses) (hseen : seen <+: uses) :
    ((Tally.recordAll {} (fitting uses seen)).counters.map (asSample space)).Nodup := by
  refine List.Nodup.map_on (fun a ha b hb heq => ?_) (.of_map _ (Tally.nodup_recordAll _))
  obtain ⟨hkey, hvalue⟩ := Prod.mk.inj heq
  obtain ⟨hname, htags⟩ := Prod.mk.inj hkey
  obtain ⟨u, hu, hukey, -⟩ := Tally.mem_counters_recordAll.mp ha
  obtain ⟨v, hv, hvkey, -⟩ := Tally.mem_counters_recordAll.mp hb
  rw [← hukey, ← hvkey] at hname htags
  have names := p.sampleName_inj (hseen.subset (mem_fitting.mp hu).1)
    (hseen.subset (mem_fitting.mp hv).1) hname
  refine Prod.ext ?_ hvalue
  rw [← hukey, ← hvkey]
  exact Prod.ext names htags

/-- The samples are what a tally holds of the uses that fit. -/
theorem Holds.samples_perm (lawful : client.Lawful Accepts Keeps)
    (h : Holds Keeps space uses seen d) (p : Permitted Accepts space uses)
    (hseen : seen <+: uses) :
    ∃ samples, client.samples d.registry = .ok samples ∧
      samples.Perm ((Tally.recordAll {} (fitting uses seen)).counters.map (asSample space)) := by
  obtain ⟨b, keeps, told⟩ := h.told
  obtain ⟨samples, hsamples, nodup, mem⟩ := lawful.published keeps
  refine ⟨samples, hsamples, (List.perm_ext_iff_of_nodup (.of_map _ nodup)
    (nodup_map_asSample p hseen)).mpr fun ⟨key, n⟩ => ?_⟩
  rw [mem, mem_map_asSample]
  constructor
  · rintro ⟨k, hk, rfl⟩
    obtain ⟨u, hu, hsample, rfl⟩ := (told.count key k).mp hk
    exact ⟨u, hu, hsample, rfl⟩
  · rintro ⟨u, hu, hsample, rfl⟩
    exact ⟨_, (told.count key _).mpr ⟨u, hu, hsample, rfl⟩, rfl⟩

end Declared

end Metrics

end SingleFlight
